import FluentBuilder.Proofs.Brackets
import FluentBuilder.Proofs.ExpressionReading
import FluentBuilder.Proofs.Integers
import FluentBuilder.Proofs.Spacing

/-!
# Expressions — the texts of expressions without quotes and square brackets

`IsExpr` builds the text of an expression from its parts: integers, names, selectors, calls, round
brackets and operators, with at most one blank in front of each token. Literals in quotes, values
with braces, indices and functions are left out.

* **`IsExpr.front`** — how such a text begins.
* **`IsExpr.paired`** — it opens and closes no square bracket.
* **`IsExpr.squeezed`** — its white space is squeezed.
-/

namespace FluentBuilder.Go

open Grammar Text

/-- What a text is to an expression. -/
inductive ExprPart where
  | operand | suffixes | whole | operations | arguments | moreArguments

/-- What may stand in front of a token: nothing or a blank. -/
def IsGap (gap : List Char) : Prop := gap = [] ∨ gap = [' ']

/-- In front of this character a sign is all of its operator, and begins no comment. -/
def SignEnds (sign : String) (c : Char) : Prop :=
  (∀ other ∈ allOperators, ¬ sign.toList ++ [c] <+: other.toList) ∧ (sign = "/" → c ∉ ['/', '*'])

instance (sign : String) (c : Char) : Decidable (SignEnds sign c) :=
  inferInstanceAs (Decidable (_ ∧ _))

/-- The text of a part of an expression. The operand behind an operator does not make another one of
it, nor a comment. -/
inductive IsExpr : ExprPart → List Char → Prop
  | number {n : List Char} (h : IsInteger n) : IsExpr .operand n
  | name {w v : List Char} (hw : IsWord w) (hname : w ∉ operandKeywords.map String.toList)
      (hv : IsExpr .suffixes v) : IsExpr .operand (w ++ v)
  | paren {gap u gap' v : List Char} (hgap : IsGap gap) (hu : IsExpr .whole u) (hgap' : IsGap gap')
      (hv : IsExpr .suffixes v) : IsExpr .operand ('(' :: (gap ++ (u ++ (gap' ++ ')' :: v))))
  | signed {sign : String} {gap u : List Char} (hsign : sign ∈ prefixMarks) (hgap : IsGap gap)
      (hu : IsExpr .operand u) : IsExpr .operand (sign.toList ++ (gap ++ u))
  | noSuffix : IsExpr .suffixes []
  | selector {gap gap' w v : List Char} (hgap : IsGap gap) (hgap' : IsGap gap') (hw : IsWord w)
      (hv : IsExpr .suffixes v) : IsExpr .suffixes (gap ++ '.' :: (gap' ++ (w ++ v)))
  | call {gap a gap' v : List Char} (hgap : IsGap gap) (ha : IsExpr .arguments a)
      (hgap' : IsGap gap') (hv : IsExpr .suffixes v) :
      IsExpr .suffixes (gap ++ '(' :: (a ++ (gap' ++ ')' :: v)))
  | noArgument : IsExpr .arguments []
  | argument {gap u a : List Char} (hgap : IsGap gap) (hu : IsExpr .whole u)
      (ha : IsExpr .moreArguments a) : IsExpr .arguments (gap ++ (u ++ a))
  | lastArgument : IsExpr .moreArguments []
  | nextArgument {gap gap' u a : List Char} (hgap : IsGap gap) (hgap' : IsGap gap')
      (hu : IsExpr .whole u) (ha : IsExpr .moreArguments a) :
      IsExpr .moreArguments (gap ++ ',' :: (gap' ++ (u ++ a)))
  | whole {u v : List Char} (hu : IsExpr .operand u) (hv : IsExpr .operations v) :
      IsExpr .whole (u ++ v)
  | noOperation : IsExpr .operations []
  | operation {gap : List Char} {sign : String} {gap' u v : List Char} (hgap : IsGap gap)
      (hsign : sign ∈ allOperators) (hgap' : IsGap gap') (hu : IsExpr .operand u)
      (happart : gap' = [] → ∀ c ∈ u.head?, SignEnds sign c) (hv : IsExpr .operations v) :
      IsExpr .operations (gap ++ (sign.toList ++ (gap' ++ (u ++ v))))

theorem signEnds_blank {sign : String} (hsign : sign ∈ allOperators) : SignEnds sign ' ' :=
  (by decide : ∀ sign ∈ allOperators, SignEnds sign ' ') sign hsign

/-! ## How expressions begin -/

section

variable {s u v gap rest : List Char} {c : Char} {part : ExprPart}

/-- The marks that an expression begins with. -/
def exprMarks : List Char := ['(', '<', '+', '-', '!', '^', '*', '&']

/-- A character that an expression begins with. -/
def BeginsExpr (c : Char) : Prop := Text.isIdentPart c = true ∨ c ∈ exprMarks

theorem BeginsExpr.plain (h : BeginsExpr c) :
    isSpace c = false ∧ isBlank c = false ∧ c ≠ '/' ∧ c ∉ closingMarks := by
  rcases h with h | h
  · have hother : ∀ d, Text.isIdentPart d = false → c ≠ d := by
      rintro d hd rfl
      rw [h] at hd
      cases hd
    have hclosing : ∀ d ∈ closingMarks, Text.isIdentPart d = false := by decide
    refine ⟨?_, isBlank_inToken (.inl h), hother _ (by decide),
      fun hmem => hother c (hclosing c hmem) rfl⟩
    by_contra hspace
    simp only [isSpace, Bool.not_eq_false, Bool.or_eq_true, beq_iff_eq] at hspace
    rcases hspace with ((((h | h) | h) | h) | h) | h <;> exact hother _ (by decide) h
  · exact (by decide : ∀ c ∈ exprMarks, isSpace c = false ∧ isBlank c = false ∧ c ≠ '/' ∧
      c ∉ closingMarks) c h

theorem IsExpr.front_operand (h : IsExpr .operand u) : ∃ c cs, u = c :: cs ∧ BeginsExpr c := by
  cases h with
  | number h =>
      obtain ⟨c, cs, rfl, hc⟩ := h.front
      exact ⟨c, cs, rfl, .inl (isIdentPart_of_digitValue hc)⟩
  | @name w v hw _ _ =>
      obtain ⟨c, cs, rfl, hc, -⟩ := isWord_iff.mp hw
      exact ⟨c, cs ++ v, rfl, .inl (by rw [Text.isIdentPart, hc, Bool.true_or])⟩
  | paren => exact ⟨'(', _, rfl, .inr (by decide)⟩
  | @signed sign gap u hsign _ _ =>
      have hsigns : ∀ sign ∈ prefixMarks, ∀ c ∈ sign.toList, c ∈ exprMarks := by decide
      have hne : ∀ sign ∈ prefixMarks, sign.toList ≠ [] := by decide
      obtain ⟨c, cs, heq⟩ := List.exists_cons_of_ne_nil (hne sign hsign)
      exact ⟨c, cs ++ (gap ++ u), by rw [heq]; rfl, .inr (hsigns sign hsign c (heq ▸ .head cs))⟩

/-- How an expression begins. -/
theorem IsExpr.front (h : IsExpr .whole u) : ∃ c cs, u = c :: cs ∧ BeginsExpr c := by
  cases h with
  | @whole u v hu _ =>
      obtain ⟨c, cs, rfl, hc⟩ := hu.front_operand
      exact ⟨c, cs ++ v, rfl, hc⟩

end

/-! ## Brackets and white space -/

/-- A text with its brackets in pairs and its white space squeezed, whatever stands behind it. -/
structure Orderly (text : List Char) : Prop where
  paired : Paired text
  squeezed (left : List Char) : squeezedTail (text ++ left) = text ++ squeezedTail left

/-- A text begins with a character other than white space. -/
def Inked (text : List Char) : Prop := ∃ c cs, text = c :: cs ∧ isBlank c = false

section

variable {u v gap text : List Char} {c d : Char}

theorem IsWord.inked (h : IsWord u) : Inked u := by
  obtain ⟨c, cs, rfl, hc, -⟩ := isWord_iff.mp h
  exact ⟨c, cs, rfl, isBlank_inToken (.inl (by rw [Text.isIdentPart, hc, Bool.true_or]))⟩

theorem IsExpr.inked_operand (h : IsExpr .operand u) : Inked u := by
  obtain ⟨c, cs, rfl, hc⟩ := h.front_operand
  exact ⟨c, cs, rfl, hc.plain.2.1⟩

theorem IsExpr.inked (h : IsExpr .whole u) : Inked u := by
  obtain ⟨c, cs, rfl, hc⟩ := h.front
  exact ⟨c, cs, rfl, hc.plain.2.1⟩

theorem Inked.append (h : Inked u) (v : List Char) : Inked (u ++ v) := by
  obtain ⟨c, cs, rfl, hc⟩ := h
  exact ⟨c, cs ++ v, rfl, hc⟩

/-- A slash in front of another character than a slash and a star begins no comment. -/
theorem comment_of_second (hd : d ∉ ['/', '*']) (s : List Char) :
    comment ('/' :: d :: s) = none := by
  simp only [List.mem_cons, List.not_mem_nil, or_false, not_or] at hd
  simp [comment, hd]

namespace Orderly

theorem nil : Orderly [] := ⟨.nil, fun _ => rfl⟩

theorem append (hu : Orderly u) (hv : Orderly v) : Orderly (u ++ v) :=
  ⟨hu.paired.append hv.paired, fun left => by
    rw [List.append_assoc, hu.squeezed, hv.squeezed, List.append_assoc]⟩

theorem char (hc : IsOrdinary c) (hblank : isBlank c = false) : Orderly [c] :=
  ⟨.char hc, fun left => by
    rw [List.singleton_append, squeezedTail_char hblank, List.singleton_append]⟩

theorem cons (hc : IsOrdinary c) (hblank : isBlank c = false) (h : Orderly text) :
    Orderly (c :: text) := (char hc hblank).append h

theorem chars (h : ∀ c ∈ text, IsOrdinary c ∧ isBlank c = false) : Orderly text := by
  induction text with
  | nil => exact nil
  | cons c text ih =>
      rw [List.forall_mem_cons] at h
      exact cons h.1.1 h.1.2 (ih h.2)

/-- What may stand in a word. -/
theorem inWord (h : ∀ c ∈ text, Text.isIdentPart c = true) : Orderly text :=
  chars fun c hc => ⟨.of_isIdentPart (h c hc), isBlank_inToken (.inl (h c hc))⟩

theorem word (h : IsWord text) : Orderly text := by
  obtain ⟨c, cs, rfl, hc, hcs⟩ := isWord_iff.mp h
  exact inWord (List.forall_mem_cons.mpr ⟨by rw [Text.isIdentPart, hc, Bool.true_or], hcs⟩)

/-- A blank in front of a text. -/
theorem behindGap (hgap : IsGap gap) (h : Orderly text) (hinked : Inked text) :
    Orderly (gap ++ text) := by
  rcases hgap with rfl | rfl
  · exact h
  obtain ⟨c, cs, rfl, hc⟩ := hinked
  refine ⟨(Paired.char (by decide)).append h.paired, fun left => ?_⟩
  have hsqueezed : Go.squeezed (c :: cs ++ left) = c :: cs ++ squeezedTail left := by
    rw [← h.squeezed left, List.cons_append, squeezed_char hc, squeezedTail_char hc]
  rw [List.append_assoc, List.singleton_append, squeezedTail_blank (by decide), hsqueezed]
  · rfl
  · rw [hsqueezed]
    exact List.cons_ne_nil _ _

/-- A slash in front of a text that does not begin a comment with it. -/
theorem slash (h : Orderly text) (hne : text ≠ []) (hhead : ∀ c ∈ text.head?, c ∉ ['/', '*']) :
    Orderly ('/' :: text) := by
  obtain ⟨d, ds, rfl⟩ := List.exists_cons_of_ne_nil hne
  refine ⟨fun inner rest => ?_, fun left => ?_⟩
  · rw [List.cons_append, behindBracket_char (by decide), if_neg, h.paired]
    rw [List.cons_append, comment_of_second (hhead d rfl)]
    rintro (hquote | hsome)
    · exact absurd hquote (by decide)
    · cases hsome
  · rw [List.cons_append, squeezedTail_char (by decide), h.squeezed]
    rfl

/-- A sign with what stands behind it. -/
theorem operator {sign : String} (hsign : sign ∈ allOperators) (h : Orderly text)
    (hne : text ≠ []) (hhead : ∀ c ∈ text.head?, SignEnds sign c) :
    Orderly (sign.toList ++ text) := by
  have hsigns : ∀ sign ∈ allOperators, sign = "/" ∨ ∀ c ∈ sign.toList,
      IsOrdinary c ∧ isBlank c = false := by
    decide
  rcases hsigns sign hsign with rfl | hchars
  · exact slash h hne fun c hc => (hhead c hc).2 rfl
  · exact (chars hchars).append h

/-- A sign with a gap on both sides. -/
theorem operation {sign : String} {gap' : List Char} (hgap : IsGap gap)
    (hsign : sign ∈ allOperators) (hgap' : IsGap gap') (h : Orderly text) (hinked : Inked text)
    (happart : gap' = [] → ∀ c ∈ text.head?, SignEnds sign c) :
    Orderly (gap ++ (sign.toList ++ (gap' ++ text))) := by
  have hhead : ∀ c ∈ (gap' ++ text).head?, SignEnds sign c := by
    rcases hgap' with rfl | rfl
    · exact happart rfl
    · rintro c ⟨⟩
      exact signEnds_blank hsign
  have hsigns : ∀ sign ∈ allOperators, sign.toList ≠ [] ∧ ∀ c ∈ sign.toList, isBlank c = false := by
    decide
  obtain ⟨d, ds, heq⟩ := List.exists_cons_of_ne_nil (hsigns sign hsign).1
  have hsignInked : Inked sign.toList := ⟨d, ds, heq, (hsigns sign hsign).2 d (heq ▸ .head ds)⟩
  have hne : text ≠ [] := by
    obtain ⟨c, cs, rfl, -⟩ := hinked
    exact List.cons_ne_nil c cs
  exact .behindGap hgap (.operator hsign (.behindGap hgap' h hinked)
    (List.append_ne_nil_of_right_ne_nil _ hne) hhead) (hsignInked.append _)

end Orderly

/-- The parts of an expression are orderly. -/
theorem IsExpr.orderly {part : ExprPart} (h : IsExpr part u) : Orderly u := by
  have hclose : ∀ {gap v}, IsGap gap → Orderly v → Orderly (gap ++ ')' :: v) := by
    intro gap v hgap hv
    exact .behindGap hgap (.cons (by decide) (by decide) hv) ⟨')', v, rfl, by decide⟩
  induction h with
  | number h => exact .inWord h.inWord
  | name hw _ _ ih => exact (Orderly.word hw).append ih
  | paren hgap hu hgap' _ ihu ihv =>
      exact .cons (by decide) (by decide)
        (.behindGap hgap (ihu.append (hclose hgap' ihv)) (hu.inked.append _))
  | signed hsign hgap hu ih =>
      have hsigns : ∀ sign ∈ prefixMarks, ∀ c ∈ sign.toList,
          IsOrdinary c ∧ isBlank c = false := by
        decide
      exact (Orderly.chars (hsigns _ hsign)).append (.behindGap hgap ih hu.inked_operand)
  | noSuffix => exact .nil
  | @selector gap gap' w v hgap hgap' hw _ ih =>
      exact .behindGap hgap (.cons (by decide) (by decide)
        (.behindGap hgap' ((Orderly.word hw).append ih) (hw.inked.append v)))
        ⟨'.', _, rfl, by decide⟩
  | call hgap _ hgap' _ iha ihv =>
      exact .behindGap hgap (.cons (by decide) (by decide) (iha.append (hclose hgap' ihv)))
        ⟨'(', _, rfl, by decide⟩
  | noArgument => exact .nil
  | argument hgap hu _ ihu iha => exact .behindGap hgap (ihu.append iha) (hu.inked.append _)
  | lastArgument => exact .nil
  | nextArgument hgap hgap' hu _ ihu iha =>
      exact .behindGap hgap (.cons (by decide) (by decide)
        (.behindGap hgap' (ihu.append iha) (hu.inked.append _))) ⟨',', _, rfl, by decide⟩
  | whole _ _ ihu ihv => exact ihu.append ihv
  | noOperation => exact .nil
  | @operation gap sign gap' u v hgap hsign hgap' hu happart _ ihu ihv =>
      refine .operation hgap hsign hgap' (ihu.append ihv) (hu.inked_operand.append v) ?_
      obtain ⟨c, cs, rfl, -⟩ := hu.inked_operand
      exact happart

/-- **The brackets of an expression come in pairs.** -/
theorem IsExpr.paired {part : ExprPart} (h : IsExpr part u) : Paired u := h.orderly.paired

/-- **The white space of an expression is squeezed.** -/
theorem IsExpr.squeezed (h : IsExpr .whole u) : Go.squeezed u = u := by
  have htail := h.orderly.squeezed []
  obtain ⟨c, cs, rfl, hc⟩ := h.front
  rw [List.append_nil, squeezedTail_char hc.plain.2.1] at htail
  rw [squeezed_char hc.plain.2.1]
  exact htail.trans (List.append_nil _)

end

end FluentBuilder.Go
