import FluentBuilder.Proofs.Balanced
import FluentBuilder.Proofs.TypeReading

/-!
# Reading fields — the struct type of a builder

A line of a name, blanks and a type is read as a field. In `a [n]T` the name could be an embedded
type that is applied to `n`; but behind such a type the field ends, and here the type of the
elements stands there (`typeArguments_cases`).

* **`reads_field`** — a name, blanks and a type are read as a field.
* **`reads_structType`** — the lines of a struct type are read as its fields.
-/

namespace FluentBuilder.Go

open Grammar

section

variable {s gap name blanks t rest : List Char} {depth : Nat}

/-! ## What stands behind a type -/

/-- No field of a struct ends in front of a type. -/
theorem fieldEnd_fails (h : TypeFront t) (rest : List Char) :
    fieldTag.Fails (t ++ rest) ∧ (Rule.token "\x7d").Fails (t ++ rest) ∧
      Rule.terminator.Fails (t ++ rest) := by
  obtain ⟨c, cs, rfl, hc⟩ := h
  have hplain : isSpace c = false ∧ c ≠ '/' ∧ c ∉ quotes ∧ c ∉ ['\x7d', '\n', ';', '\x00'] := by
    rcases hc with hc | hc
    · have hother : ∀ d, d ∈ quotes ∨ d ∈ ['\x7d', '\n', ';', '\x00'] → c ≠ d := by
        rintro d hd rfl
        have hstart : ∀ d ∈ quotes ++ ['\x7d', '\n', ';', '\x00'], Text.isIdentStart d = false := by
          decide
        rw [hstart c (List.mem_append.mpr hd)] at hc
        cases hc
      obtain ⟨hspace, hslash⟩ := isSpace_of_isIdentStart hc
      exact ⟨hspace, hslash, fun h => hother c (.inl h) rfl, fun h => hother c (.inr h) rfl⟩
    · exact (by decide : ∀ c ∈ typeMarks, isSpace c = false ∧ c ≠ '/' ∧ c ∉ quotes ∧
        c ∉ ['\x7d', '\n', ';', '\x00']) c hc
  obtain ⟨hspace, hslash, hquote, hend⟩ := hplain
  have hgap := takeGap_stop hspace hslash (cs ++ rest)
  simp only [List.mem_cons, List.not_mem_nil, or_false, not_or] at hend
  refine ⟨.onLineAppend (.as (string_fails hgap hquote)), .token hgap ?_ (by decide), ?_⟩
  · simpa using Ne.symm hend.1
  · have hline : takeLineGap (c :: (cs ++ rest)) = ([], c :: (cs ++ rest)) := by
      simp [takeLineGap, takeGapWith, hspace, comment_of_ne hslash]
    simp [Rule.Fails, Rule.terminator, hline, hend]

/-! ## Fields -/

/-- Behind a name and blanks, a type is no list of types that the name is applied to, or it is the
length of an array with a type behind it. -/
theorem typeArguments_cases (depth : Nat) (ht : ReadsAsType t) (hblanks : ∀ c ∈ blanks, c = ' ')
    (rest : List Char) :
    (grammar depth).typeArguments.Fails (blanks ++ (t ++ rest)) ∨
      ∃ parts elem, TypeFront elem ∧
        (grammar depth).typeArguments.Reads (blanks ++ (t ++ rest)) parts (elem ++ rest) := by
  have hgap := ht.gapless.behind (fun c hc => hblanks c hc ▸ rfl) rest
  cases hread : (grammar depth).typeArguments.read (blanks ++ (t ++ rest)) with
  | none => exact .inl hread
  | some found =>
      obtain ⟨parts, left⟩ := found
      obtain ⟨items, middle, hlist, hnode⟩ := Rule.read_andThen hread
      cases hnode
      by_cases hbracket : t.head? = some '['
      · obtain ⟨length, elem, rfl, hlength, helem⟩ := ht.bracket hbracket
        have htext : '[' :: (length ++ ']' :: elem) ++ rest =
            '[' :: (length ++ ']' :: (elem ++ rest)) := by
          simp only [List.cons_append, List.append_assoc]
        rw [htext] at hgap hlist
        have hleft : left = elem ++ rest := (grammar_balanced depth).typeList.enclosed_ends hlist
          hgap (hlength.closes (elem ++ rest))
        exact .inr ⟨_, elem, helem, hleft ▸ hread⟩
      · obtain ⟨c, cs, rfl, -⟩ := ht.front
        have hopen : (Rule.token "[").Fails (blanks ++ (c :: cs ++ rest)) :=
          .token hgap (fun hhead => hbracket hhead.symm) (by decide)
        cases (hopen.append.append : Rule.Fails _ _).symm.trans hlist

section

variable (hw : AtWord s gap name (blanks ++ (t ++ '\n' :: rest))) (hblanks : ∀ c ∈ blanks, c = ' ')
  (ht : ReadsAsType t)

include hw hblanks ht

/-- A field with a name embeds no type that is applied to types. -/
theorem genericField_fails : (grammar depth).genericField.Fails s := by
  have hgap := ht.gapless.behind (fun c hc => hblanks c hc ▸ rfl) ('\n' :: rest)
  obtain ⟨c, cs, heq, hspace, hslash, -, hdot⟩ := ht.front_plain
  have hline : (Rule.onLine true).Reads (blanks ++ (t ++ '\n' :: rest)) []
      (blanks ++ (t ++ '\n' :: rest)) := by
    refine .onLine (.inr ?_)
    rw [breakAhead_blanks hblanks, heq]
    exact breakAhead_stop hspace hslash _
  have hnoDot : (Rule.onLine true ++ .token ".").Fails (blanks ++ (t ++ '\n' :: rest)) := by
    rw [heq] at hgap ⊢
    exact .onLineAppend (.token hgap (by simpa using Ne.symm hdot) (by decide))
  have hname : (namedType [] true).Reads s _ _ := reads_namedType hw nofun hnoDot
  rcases typeArguments_cases depth ht hblanks ('\n' :: rest)
    with hnone | ⟨parts, elem, helem, hargs⟩
  · exact .append (.aheadAppend (.as (.orElse (applied_fails hname (.onLineAppend (.as hnone)))
      (genericNegation_fails (.tokenAtWord hw (by decide))))))
  · have hgeneric : ((grammar depth).genericType [] true).Reads s _ (elem ++ '\n' :: rest) :=
      .left (.node (.append (.append (.as hname) hline) (.as hargs)))
    obtain ⟨htag, hbrace, hterminator⟩ := fieldEnd_fails helem ('\n' :: rest)
    have hbehind : ∀ next : Rule, (fieldTag <|> .token "\x7d" <|> .terminator ++ next).Fails
        (elem ++ '\n' :: rest) := fun _ => .orElse htag (.orElse hbrace (.append hterminator))
    rcases Rule.ahead_cases _ s with hvalue | hvalue
    · exact .append (.append hvalue)
    · exact .behind (.append hvalue (.as hgeneric)) (.ahead (congrArg Option.isSome (hbehind _)))

/-- **A name, blanks and a type** on a line are a field. -/
theorem reads_field (hdepth : t.length ≤ depth) :
    ∃ tree parts, (grammar depth).fieldDeclaration.Reads s [⟨none, .node .fieldDeclaration parts⟩]
      ('\n' :: rest) ∧ fieldsOf [⟨none, .node .fieldDeclaration parts⟩] =
        [⟨[String.ofList name], Tree.toType tree, none⟩] ∧ signatureChars tree.toType = .ok t := by
  have hgap := ht.gapless.behind (fun c hc => hblanks c hc ▸ rfl) ('\n' :: rest)
  have hend : Closes true ('\n' :: rest) := ⟨stopsWord_cons (by decide) _, .inl ⟨rfl, rfl⟩⟩
  obtain ⟨tree, htype, hsignature⟩ := ht.reads depth hdepth hgap hend
  obtain ⟨c, cs, heq, hspace, hslash, hclosing, -⟩ := ht.front_plain
  have hline : (Rule.onLine true).Reads (blanks ++ (t ++ '\n' :: rest)) []
      (blanks ++ (t ++ '\n' :: rest)) := by
    refine .onLine (.inr ?_)
    rw [breakAhead_blanks hblanks, heq]
    exact breakAhead_stop hspace hslash _
  have hcomma : (Rule.token ",").Fails (blanks ++ (t ++ '\n' :: rest)) := by
    rw [heq] at hgap ⊢
    refine .token hgap ?_ (by decide)
    rintro ⟨⟩
    exact hclosing (by decide)
  have hname : fieldName.Reads s [⟨some .name, .leaf .fieldIdentifier gap name⟩]
      (blanks ++ (t ++ '\n' :: rest)) := .anyNameAs hw
  have hplain : (grammar depth).plainField.Reads s _ ('\n' :: rest) :=
    .right (.append (.append (.behind (.append hname hline) (.append hcomma))))
      (.left (.append (.append hname hline) (.as htype)))
  refine ⟨tree, _, .node (.append (.right (genericField_fails hw hblanks ht) hplain)
    (.none (.append (.onLine rfl)))), ?_, hsignature⟩
  simp [fieldsOf, textsOf, roleType, tagOf, Tree.text, Tree.chars, Tree.leaves]

end

/-! ## Struct types -/

/-- A line of a name, blanks and a type. -/
inductive IsFieldLine : List Char → Prop
  | mk {name blanks t : List Char} (hname : IsWord name) (hne : blanks ≠ [])
      (hblanks : ∀ c ∈ blanks, c = ' ') (ht : ReadsAsType t) : IsFieldLine (name ++ (blanks ++ t))

/-- A field has the name that a line begins with and, behind the blanks, its type. -/
def Declares (line : List Char) (field : Field) : Prop :=
  ∀ name more, word line = some (name, more) → field.names = [String.ofList name] ∧
    signatureChars field.type = .ok (more.dropWhile isSpace)

/-- What stands behind a name in a line does not go on with it. -/
theorem stopsWord_blanks (hne : blanks ≠ []) (hblanks : ∀ c ∈ blanks, c = ' ')
    (rest : List Char) : StopsWord (blanks ++ rest) := by
  obtain ⟨c, blanks, rfl⟩ := List.exists_cons_of_ne_nil hne
  rw [(List.forall_mem_cons.mp hblanks).1]
  exact stopsWord_cons (by decide) _

/-- Behind blanks, a type is what is left without them. -/
theorem ReadsAsType.dropWhile_blanks (ht : ReadsAsType t) (hblanks : ∀ c ∈ blanks, c = ' ') :
    (blanks ++ t).dropWhile isSpace = t := by
  obtain ⟨c, cs, rfl, hspace, -⟩ := ht.front_plain
  rw [List.dropWhile_append_of_pos fun d hd => hblanks d hd ▸ rfl,
    List.dropWhile_cons_of_neg (by simp [hspace])]

namespace IsFieldLine

variable {line : List Char}

theorem gapless (h : IsFieldLine line) : Gapless line := by
  obtain ⟨hname, -, -, -⟩ := h
  obtain ⟨c, cs, rfl, hc, -⟩ := isWord_iff.mp hname
  obtain ⟨hspace, hslash⟩ := isSpace_of_isIdentStart hc
  exact fun rest => takeGap_stop hspace hslash _

/-- A line is read as a field. -/
theorem reads (h : IsFieldLine line) (hdepth : line.length ≤ depth)
    (hs : takeGap s = (gap, line ++ '\n' :: rest)) :
    ∃ tree, (grammar depth).fieldDeclaration.Reads s [⟨none, tree⟩] ('\n' :: rest) ∧
      ∃ field, fieldsOf [⟨none, tree⟩] = [field] ∧ Declares line field := by
  cases h with
  | @mk name blanks t hname hne hblanks ht =>
      rw [List.append_assoc, List.append_assoc] at hs
      have hstop : StopsWord (blanks ++ (t ++ '\n' :: rest)) := stopsWord_blanks hne hblanks _
      have hlength : t.length ≤ depth := by
        simp only [List.length_append] at hdepth
        omega
      obtain ⟨tree, parts, hread, hfield, hsignature⟩ :=
        reads_field ⟨hs, hname, hstop⟩ hblanks ht hlength
      refine ⟨_, hread, _, hfield, fun other more hword => ?_⟩
      rw [word_append hname (stopsWord_blanks hne hblanks t)] at hword
      cases hword
      exact ⟨rfl, (ht.dropWhile_blanks hblanks).symm ▸ hsignature⟩

end IsFieldLine

theorem fieldsOf_cons (part : Part) (rest : List Part) :
    fieldsOf (part :: rest) = fieldsOf [part] ++ fieldsOf rest := by
  obtain ⟨role, tree⟩ := part
  cases tree with
  | token gap text => simp [fieldsOf]
  | leaf kind gap text => simp [fieldsOf]
  | node kind parts => cases kind <;> simp [fieldsOf]

theorem fieldsOf_token (role : Option Role) (gap mark : List Char) (rest : List Part) :
    fieldsOf (⟨role, .token gap mark⟩ :: rest) = fieldsOf rest := by
  simp [fieldsOf]

/-- The fields of declarations with line breaks between them. -/
theorem fieldsOf_itemParts {lines : List (List Char)} {trees : List Tree}
    (h : List.Forall₂ (fun line tree => ∃ field, fieldsOf [⟨none, tree⟩] = [field] ∧
      Declares line field) lines trees) {marks : List Part} (hmarks : fieldsOf marks = []) :
    List.Forall₂ Declares lines (fieldsOf (itemParts '\n' trees ++ marks)) := by
  induction h with
  | nil => exact hmarks ▸ .nil
  | @cons line tree lines trees htree htrees ih =>
      obtain ⟨field, hfield, hdeclares⟩ := htree
      rw [itemParts, List.cons_append, fieldsOf_token, List.cons_append, fieldsOf_cons, hfield]
      exact .cons hdeclares ih

/-- **A struct type with fields on lines of their own.** -/
theorem reads_structType {first margin : List Char} {others : List (List Char)} {ends : Bool}
    (hlines : ∀ line ∈ first :: others, IsFieldLine line ∧ line.length ≤ depth)
    (hmargin : ∀ c ∈ margin, isSpace c = true)
    (hs : takeGap s = (gap, "struct".toList ++ ' ' :: '\x7b' :: '\n' :: (margin ++ (first ++
      behindMarks '\n' margin others ('\n' :: '\x7d' :: rest))))) :
    ∃ tree, ((grammar depth).typeRule ends).Reads s [⟨none, tree⟩] rest ∧
      ∃ fields, tree.toType = .struct (some fields) ∧
        List.Forall₂ Declares (first :: others) fields := by
  have hword : AtWord s gap "struct".toList (' ' :: '\x7b' :: '\n' :: (margin ++ (first ++
      behindMarks '\n' margin others ('\n' :: '\x7d' :: rest)))) :=
    ⟨hs, by decide, stopsWord_cons (by decide) _⟩
  have hitems : ReadsItems (grammar depth).fieldDeclaration (fun line tree => ∃ field,
      fieldsOf [⟨none, tree⟩] = [field] ∧ Declares line field) '\n' margin (first :: others)
      ('\n' :: '\x7d' :: rest) := by
    intro line lines hsuffix s gap hs
    obtain ⟨left, hleft⟩ : ∃ left, behindMarks '\n' margin lines ('\n' :: '\x7d' :: rest) =
        '\n' :: left := by
      cases lines <;> exact ⟨_, rfl⟩
    rw [hleft] at hs ⊢
    obtain ⟨hline, hlength⟩ := hlines line (hsuffix.subset (.head _))
    exact hline.reads hlength hs
  have hbrace : AtClosing ('\x7d' :: rest) := .of_cons (by decide) rest
  have hbreak : Rule.terminator.Reads ('\n' :: '\x7d' :: rest) [⟨none, .token [] ['\n']⟩]
      ('\x7d' :: rest) := rfl
  -- the first field has the line break behind the brace in its gap
  have hfirst : takeGap ('\n' :: (margin ++ (first ++ behindMarks '\n' margin others
      ('\n' :: '\x7d' :: rest)))) =
        ('\n' :: margin, first ++ behindMarks '\n' margin others ('\n' :: '\x7d' :: rest)) := by
    rw [takeGap_space (by decide), (hlines first (.head _)).1.gapless.behind hmargin]
  obtain ⟨tree, trees, hread, htrees⟩ := hitems.sepBy (separates_line hmargin)
    (fun line hline => (hlines line (.tail _ hline)).1.gapless)
    (.behind hbreak (fieldDeclaration_fails hbrace)) hfirst
  refine ⟨_, ReadsAsType.typeRule_of_struct hword (.node (.append (.keyword hword rfl)
    (.node (.append (.append (.markBlank rfl (by decide)) (.some (.append hread (.some hbreak))))
      (.mark rfl (by decide)))))), _, rfl, ?_⟩
  obtain ⟨⟨field, hfield, hdeclares⟩, hothers⟩ := List.forall₂_cons.mp htrees
  have hmarks : fieldsOf [⟨none, .token [] ['\n']⟩, ⟨none, .token [] ['\x7d']⟩] = [] := rfl
  have hfields := fieldsOf_itemParts hothers hmarks
  simp only [List.append_assoc, List.cons_append, List.nil_append, fieldsOf_token]
  rw [fieldsOf_cons, hfield]
  exact .cons hdeclares hfields

end

end FluentBuilder.Go
