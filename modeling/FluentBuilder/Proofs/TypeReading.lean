import FluentBuilder.Proofs.OperandReading

/-!
# Reading types — the text of a type is read as a type with the same text

`ReadsAsType` says of a text that it is read as a type wherever a type can stand, up to what closes
the type, and that the signature of this type is the text again. There is one lemma for each kind of
type, each from the texts of its parts. The depth of the grammar that the reading takes is bounded
by the length of the text.

* **`ReadsAsType.name`**, **`pointer`**, **`slice`**, **`array`**, **`map`**, **`paren`** — a name,
  and what begins with a mark or a keyword.
* **`ReadsAsType.both`**, **`send`**, **`receive`** — channels: an arrow may belong to the channel
  or to its elements.
* **`ReadsAsType.generic`** — a name with types in brackets.
-/

namespace FluentBuilder.Go

open Grammar

/-! ## The parts of a type -/

section

variable {t : Tree} {s : List Char} {role : Option Role} {rest : List Part}

theorem firstType_cons (h : signatureChars t.toType = .ok s) :
    firstType (⟨role, t⟩ :: rest) = t.toType := by
  cases t with
  | token gap text => cases h
  | leaf kind gap text => rfl
  | node kind parts => rfl

theorem namedTypes_cons (h : signatureChars t.toType = .ok s) :
    namedTypes (⟨role, t⟩ :: rest) = t.toType :: namedTypes rest := by
  cases t with
  | token gap text => cases h
  | leaf kind gap text => rfl
  | node kind parts => rfl

/-- A type is no mark. -/
theorem marksOf_append (h : signatureChars t.toType = .ok s) (parts : List Part) :
    marksOf (parts ++ [⟨role, t⟩]) = marksOf parts := by
  have hnone : marksOf [⟨role, t⟩] = [] := by
    cases t with
    | token gap text => cases h
    | leaf kind gap text => rfl
    | node kind parts => rfl
  rw [marksOf, Tree.marks, Tree.parts, List.filterMap_append]
  exact (congrArg _ hnone).trans (List.append_nil _)

/-- The signature of a channel type whose last child is that of its elements. -/
theorem signatureChars_channel (h : signatureChars t.toType = .ok s) (marks : List Part)
    (direction : Direction) (hmarks : directionOf (marksOf marks) = direction)
    (hroles : ∀ part ∈ marks, part.role = none)
    (hbrackets : needsBrackets direction t.toType = false) :
    signatureChars (Tree.node .channelType (marks ++ [⟨some .value, t⟩])).toType =
      .ok (direction.word ++ s) := by
  have hvalue : roleType .value (marks ++ [⟨some .value, t⟩]) = t.toType := by
    clear hmarks
    induction marks with
    | nil => rfl
    | cons mark marks ih =>
        obtain ⟨role, tree⟩ := mark
        rw [List.forall_mem_cons] at hroles
        obtain ⟨rfl, hroles⟩ := hroles
        exact ih hroles
  rw [Tree.toType]
  rw [hvalue, marksOf_append h, hmarks, signatureChars, h]
  simp [hbrackets]

/-- The types of items with commas between them. -/
theorem signaturesOf_itemParts {text : List Char} {texts : List (List Char)} {tree : Tree}
    {trees : List Tree}
    (h : List.Forall₂ (fun text tree => signatureChars tree.toType = .ok text) (text :: texts)
      (tree :: trees)) (gap mark : List Char) :
    signaturesOf (namedTypes (⟨none, tree⟩ :: (itemParts ',' trees ++ [⟨none, .token gap mark⟩]))) =
      .ok (text :: texts) := by
  induction trees generalizing text texts tree with
  | nil =>
      obtain ⟨htree, htrees⟩ := List.forall₂_cons.mp h
      cases htrees
      rw [namedTypes_cons htree, signaturesOf, htree]
      rfl
  | cons next trees ih =>
      obtain ⟨htree, htrees⟩ := List.forall₂_cons.mp h
      cases htrees with
      | cons hnext hothers =>
          rw [namedTypes_cons htree, signaturesOf, htree, itemParts, List.cons_append, namedTypes,
            List.cons_append, ih (.cons hnext hothers)]
          rfl

/-- A type that is no choice stands for itself. -/
theorem toType_typeElem (h : signatureChars t.toType = .ok s) :
    (Tree.node .typeElem [⟨role, t⟩]).toType = t.toType := by
  have hcount : namedCount [⟨role, t⟩] = 1 := by
    cases t with
    | token gap text => cases h
    | leaf kind gap text => rfl
    | node kind parts => rfl
  rw [Tree.toType, hcount]
  exact firstType_cons h

end

/-! ## Texts of types -/

/-- No field begins with a closing mark. -/
theorem fieldDeclaration_fails {g : Grammar} {s : List Char} (h : AtClosing s) :
    g.fieldDeclaration.Fails s := by
  have hword := h.noWord
  have hfieldName : fieldName.Fails s := .as hword.name
  have hnamed : ∀ keywords ends, (namedType keywords ends).Fails s := fun _ _ =>
    namedType_fails fun _ => hword.name
  have hgeneric : ∀ keywords ends, (g.genericType keywords ends).Fails s := fun _ _ =>
    .orElse (.node (.append (.append (.as (hnamed _ _)))))
      (genericNegation_fails (h.token (by decide) (by decide)))
  have hembedded : ∀ type : Rule, type.Fails s → (embeddedType type).Fails s := fun type htype =>
    .behind (.notAhead (.append (.append hfieldName))) (.as htype)
  have hplain : g.plainField.Fails s := by
    refine .orElse (.append (.append (.append (.append hfieldName)))) ?_
    refine .orElse (.append (.append hfieldName)) ?_
    refine .orElse (.append (h.token (by decide) (by decide))) ?_
    exact hembedded _ (.orElse (hgeneric _ _) (hnamed _ _))
  exact .node (.append (.orElse (.append (hembedded _ (hgeneric _ _))) hplain))

/-- The marks that the text of a type begins with. -/
def typeMarks : List Char := ['(', '[', '*', '<']

/-- A text begins like the text of a type. -/
def TypeFront (s : List Char) : Prop :=
  ∃ c cs, s = c :: cs ∧ (Text.isIdentStart c = true ∨ c ∈ typeMarks)

theorem TypeFront.plain {s : List Char} (h : TypeFront s) :
    ∃ c cs, s = c :: cs ∧ isSpace c = false ∧ c ≠ '/' ∧ c ∉ closingMarks ∧ c ≠ '.' := by
  obtain ⟨c, cs, rfl, hc | hc⟩ := h
  · obtain ⟨hspace, hslash⟩ := isSpace_of_isIdentStart hc
    refine ⟨c, cs, rfl, hspace, hslash, fun hmem => ?_, ?_⟩
    · rw [(closingMarks_plain hmem).2.2.2] at hc
      cases hc
    · rintro rfl
      exact absurd hc (by decide)
  · have hmarks : ∀ c ∈ typeMarks, isSpace c = false ∧ c ≠ '/' ∧ c ∉ closingMarks ∧ c ≠ '.' := by
      decide
    exact ⟨c, cs, rfl, hmarks c hc⟩

theorem TypeFront.commaSeparated {s : List Char} (h : TypeFront s) (others : List (List Char)) :
    TypeFront (commaSeparated (s :: others)) := by
  obtain ⟨c, cs, rfl, hc⟩ := h
  have htext := commaSeparated_append (c :: cs) others []
  rw [List.append_nil] at htext
  exact ⟨c, _, htext, hc⟩

/-- A text begins with square brackets around a text, or with nothing in them, and goes on like the
text of a type. -/
def Bracketed (s : List Char) : Prop :=
  ∃ length elem, s = '[' :: (length ++ ']' :: elem) ∧ Paired length ∧ TypeFront elem

/-- A text of a type: in front of the end of a type it is read as a type with this signature. Its
brackets come in pairs, and behind the first ones, if it begins with any, stands a type. -/
structure ReadsAsType (s : List Char) : Prop where
  front  : TypeFront s
  paired : Paired s
  bracket (h : s.head? = some '[') : Bracketed s
  reads (depth : Nat) {ends : Bool} {text gap rest : List Char} (hdepth : s.length ≤ depth)
    (h : takeGap text = (gap, s ++ rest)) (hend : Closes ends rest) :
    ∃ tree, ((grammar depth).type ends).Reads text [⟨none, tree⟩] rest ∧
      signatureChars tree.toType = .ok s

/-- A name of a type, perhaps with that of its package. -/
inductive IsTypeText : List Char → Prop
  | plain {name : String} (h : IsTypeName name) : IsTypeText name.toList
  | qualified {package name : String} (hpackage : IsTypeName package) (h : IsWord name.toList) :
      IsTypeText (package.toList ++ '.' :: name.toList)

namespace ReadsAsType

variable {s text gap rest : List Char} {ends : Bool} {depth : Nat} {g : Grammar}
  {parts : List Part}

theorem front_plain (h : ReadsAsType s) :
    ∃ c cs, s = c :: cs ∧ isSpace c = false ∧ c ≠ '/' ∧ c ∉ closingMarks ∧ c ≠ '.' := h.front.plain

theorem gapless (h : ReadsAsType s) : Gapless s := by
  intro rest
  obtain ⟨c, cs, rfl, hspace, hslash, -⟩ := h.front_plain
  exact takeGap_stop hspace hslash _

end ReadsAsType

theorem IsTypeName.notMem {name : String} (h : IsTypeName name) :
    name.toList ∉ typeKeywords.map String.toList := by
  intro hmem
  obtain ⟨keyword, hkeyword, heq⟩ := List.mem_map.mp hmem
  exact h.2 (String.toList_inj.mp heq ▸ hkeyword)

namespace IsTypeText

variable {s n text gap rest : List Char} {ends : Bool}

theorem front (h : IsTypeText n) : ∃ c cs, n = c :: cs ∧ Text.isIdentStart c = true := by
  cases h with
  | plain h =>
      obtain ⟨c, cs, heq, hc, -⟩ := isWord_iff.mp h.1
      exact ⟨c, cs, heq, hc⟩
  | @qualified package name hpackage h =>
      obtain ⟨c, cs, heq, hc, -⟩ := isWord_iff.mp hpackage.1
      exact ⟨c, cs ++ '.' :: name.toList, by rw [heq]; rfl, hc⟩

theorem head_ne_bracket (h : IsTypeText n) (more : List Char) :
    (n ++ more).head? ≠ some '[' := by
  obtain ⟨c, cs, rfl, hc⟩ := h.front
  rintro ⟨⟩
  exact absurd hc (by decide)

theorem paired (h : IsTypeText n) : Paired n := by
  cases h with
  | plain h => exact .word h.1
  | qualified hpackage h => exact (Paired.word hpackage.1).append (.cons (by decide) (.word h))

/-- A name is read as a type if neither a dot nor more of it follows. -/
theorem reads (h : IsTypeText n) (hfront : takeGap text = (gap, n ++ rest))
    (hstop : StopsWord rest) (hdot : (Rule.onLine ends ++ .token ".").Fails rest) :
    ∃ tree, (namedType typeKeywords ends).Reads text [⟨none, tree⟩] rest ∧
      signatureChars tree.toType = .ok n := by
  cases h with
  | @plain name h =>
      have hword : AtWord text gap name.toList rest := ⟨hfront, h.1, hstop⟩
      refine ⟨_, reads_namedType hword h.notMem hdot, ?_⟩
      simp [Tree.toType, signatureChars]
  | @qualified package name hpackage h =>
      rw [List.append_assoc, List.cons_append] at hfront
      have hpoint : StopsWord ('.' :: (name.toList ++ rest)) := stopsWord_cons (by decide) _
      have hword : AtWord text gap package.toList ('.' :: (name.toList ++ rest)) :=
        ⟨hfront, hpackage.1, hpoint⟩
      have hline : (Rule.onLine ends).Reads ('.' :: (name.toList ++ rest)) []
          ('.' :: (name.toList ++ rest)) :=
        .onLine (.inr (breakAhead_stop (by decide) (by decide) _))
      have hmark : (Rule.token ".").Reads ('.' :: (name.toList ++ rest)) [⟨none, .token [] ['.']⟩]
          (name.toList ++ rest) := .token (takeGap_stop (by decide) (by decide) _)
      refine ⟨_, .left (.node (.append (.append (.append (.as (.name hword hpackage.notMem)) hline)
        hmark) (.as (.name (.of_word h hstop) nofun)))), ?_⟩
      simp [Tree.toType, roleType, textOf, textsOf, Tree.text, Tree.chars, Tree.leaves,
        signatureChars]

end IsTypeText

/-- What ends a type is no list of types that it is applied to. -/
theorem Closes.applied_fails {g : Grammar} {parts : List Part} {ends : Bool} {rest : List Char}
    (h : Closes ends rest) : (g.applied (.yield parts) ends).Fails rest :=
  Grammar.applied_fails .yield
    (h.noSuffix.onLine (by decide) fun hbracket => .as (typeArguments_fails hbracket))

namespace ReadsAsType

variable {s v n text gap rest : List Char} {ends : Bool} {depth : Nat} {g : Grammar}
  {parts : List Part}

/-- What the grammar reads at some depth is what its rule for types reads one level below. -/
theorem of_typeRule (hfront : TypeFront s) (hpaired : Paired s)
    (hbracket : s.head? = some '[' → Bracketed s)
    (h : ∀ {depth : Nat} {ends : Bool} {text gap rest : List Char}, s.length ≤ depth + 1 →
      takeGap text = (gap, s ++ rest) → Closes ends rest →
        ∃ tree, ((grammar depth).typeRule ends).Reads text [⟨none, tree⟩] rest ∧
          signatureChars tree.toType = .ok s) : ReadsAsType s := by
  refine ⟨hfront, hpaired, hbracket, fun depth {ends text gap rest} hdepth hgap hend => ?_⟩
  obtain ⟨c, cs, rfl, -⟩ := hfront
  cases depth with
  | zero => cases hdepth
  | succ depth => exact h hdepth hgap hend

theorem name (h : IsTypeText n) : ReadsAsType n := by
  refine of_typeRule ?_ h.paired ?_ fun _ hgap hend => ?_
  · obtain ⟨c, cs, heq, hc⟩ := h.front
    exact ⟨c, cs, heq, .inl hc⟩
  · intro hhead
    rw [← List.append_nil n] at hhead
    exact absurd hhead (h.head_ne_bracket [])
  · obtain ⟨tree, hread, hsignature⟩ := h.reads hgap hend.stops
      (hend.onLine fun hclosing => hclosing.token (by decide) (by decide))
    exact ⟨tree, .left (.andThen hread (.right hend.applied_fails .yield)), hsignature⟩

theorem pointer (h : ReadsAsType s) : ReadsAsType ('*' :: s) := by
  refine of_typeRule ⟨'*', s, rfl, by decide⟩ (.cons (by decide) h.paired) nofun
    fun hdepth hgap hend => ?_
  obtain ⟨tree, hread, hsignature⟩ :=
    h.reads _ (Nat.le_of_succ_le_succ hdepth) (h.gapless _) hend
  have hword := noWord_of_front hgap (by decide)
  refine ⟨_, .right (.andThen (namedType_fails fun _ => hword.name))
    (.left (.node (.append (.token hgap) hread))), ?_⟩
  rw [Tree.toType]
  dsimp only [List.cons_append, List.nil_append]
  rw [firstType, firstType_cons hsignature, signatureChars, hsignature]
  rfl

theorem slice (h : ReadsAsType s) : ReadsAsType ('[' :: ']' :: s) := by
  refine of_typeRule ⟨'[', ']' :: s, rfl, by decide⟩ (Paired.nil.bracketed h.paired)
    (fun _ => ⟨[], s, rfl, .nil, h.front⟩) fun hdepth hgap hend => ?_
  obtain ⟨tree, hread, hsignature⟩ := h.reads _
    (Nat.le_of_succ_le (Nat.le_of_succ_le_succ hdepth)) (h.gapless _) hend
  have hword := noWord_of_front hgap (by decide)
  refine ⟨_, .right (.andThen (namedType_fails fun _ => hword.name))
    (.right (.node (.append (.token hgap (by decide) (by decide))))
      (.left (.node (.append (.append (.token hgap) (.mark rfl (by decide))) (.as hread))))), ?_⟩
  simp [Tree.toType, roleType, signatureChars, hsignature]

theorem closes_bracket (ends : Bool) (rest : List Char) : Closes ends (']' :: rest) :=
  ⟨stopsWord_cons (by decide) _, .inr (.of_cons (by decide) _)⟩

theorem array {length : List Char} (hlength : IsExpr .whole length) (h : ReadsAsType s) :
    ReadsAsType ('[' :: (length ++ ']' :: s)) := by
  refine of_typeRule ⟨'[', _, rfl, by decide⟩ (hlength.paired.bracketed h.paired)
    (fun _ => ⟨length, s, rfl, hlength.paired, h.front⟩)
    fun {depth ends text gap rest} hdepth hgap hend => ?_
  simp only [List.length_cons, List.length_append] at hdepth
  obtain ⟨c, cs, heq, hc⟩ := hlength.front
  obtain ⟨hspace, -, hslash, hclosing⟩ := hc.plain
  obtain ⟨depth, rfl⟩ : ∃ n, depth = n + 1 := by
    obtain ⟨d, ds, rfl, -⟩ := h.front
    exact ⟨depth - 1, by simp only [List.length_cons] at hdepth; omega⟩
  obtain ⟨size, hreadSize, hsize⟩ := hlength.reads depth (by omega) (s ++ rest)
  obtain ⟨tree, hread, hsignature⟩ := h.reads (depth + 1) (by omega)
    (h.gapless _) hend
  simp only [List.cons_append, List.append_assoc] at hgap
  have hword := noWord_of_front hgap (by decide)
  have hslice : (Rule.token "]").Fails (length ++ ']' :: (s ++ rest)) := by
    rw [heq]
    refine .token (takeGap_stop hspace hslash _) ?_ (by decide)
    rintro ⟨⟩
    exact hclosing (by decide)
  refine ⟨_, .right (.andThen (namedType_fails fun _ => hword.name))
    (.right (.node (.append (.token hgap (by decide) (by decide))))
      (.right (.node (.append (.behind (.token hgap) hslice)))
        (.left (.node (.append (.append (.append (.token hgap) (.as hreadSize))
          (.mark rfl (by decide))) (.as hread)))))), ?_⟩
  simp [Tree.toType, roleType, signatureChars, hsignature, hsize]

/-- A type that is no name, and begins with neither a star nor a square bracket. -/
theorem typeRule_of_others (hname : ∀ kind, (Rule.name kind typeKeywords).Fails text)
    (hstar : (Rule.token "*").Fails text) (hbracket : (Rule.token "[").Fails text)
    {left : List Char}
    (h : (g.mapType ends <|> g.channelType ends <|> g.functionType ends <|> g.structType <|>
      g.interfaceType <|> g.perhapsApplied (g.negatedType ends) ends <|>
      g.parenthesizedType).Reads text parts left) : (g.typeRule ends).Reads text parts left :=
  .right (.andThen (namedType_fails hname)) (.right (.node (.append hstar))
    (.right (.node (.append (.append hbracket)))
      (.right (.node (.append (.append (.append hbracket)))) h)))

theorem typeRule_of_keyword {w left : List Char} (hword : AtWord text gap w rest)
    (hw : w ∈ typeKeywords.map String.toList)
    (h : (g.mapType ends <|> g.channelType ends <|> g.functionType ends <|> g.structType <|>
      g.interfaceType <|> g.perhapsApplied (g.negatedType ends) ends <|>
      g.parenthesizedType).Reads text parts left) : (g.typeRule ends).Reads text parts left :=
  typeRule_of_others (fun _ => .name hword hw) (.tokenAtWord hword (by decide))
    (.tokenAtWord hword (by decide)) h

theorem map {k : List Char} (hkey : ReadsAsType k) (h : ReadsAsType s) :
    ReadsAsType ('m' :: 'a' :: 'p' :: '[' :: (k ++ ']' :: s)) := by
  have hpaired := Paired.append (a := ['m', 'a', 'p']) (.chars (by decide))
    (hkey.paired.bracketed h.paired)
  refine of_typeRule ⟨'m', _, rfl, by decide⟩ hpaired nofun
    fun {depth ends text gap rest} hdepth hgap hend => ?_
  simp only [List.length_cons, List.length_append] at hdepth
  obtain ⟨key, hreadKey, hsignatureKey⟩ := hkey.reads depth (by omega)
    (hkey.gapless _) (closes_bracket false (s ++ rest))
  obtain ⟨tree, hread, hsignature⟩ := h.reads depth (by omega) (h.gapless _) hend
  simp only [List.cons_append, List.append_assoc] at hgap
  have hword : AtWord text gap ['m', 'a', 'p'] ('[' :: (k ++ ']' :: (s ++ rest))) :=
    ⟨hgap, by decide, stopsWord_cons (by decide) _⟩
  refine ⟨_, typeRule_of_keyword hword (by decide) (.left (.node (.append (.append
    (.keyword hword rfl) (.append (.append (.mark rfl (by decide)) (.as hreadKey))
      (.mark rfl (by decide)))) (.as hread)))), ?_⟩
  simp [Tree.toType, roleType, signatureChars, hsignature, hsignatureKey, bind, Except.bind, pure,
    Except.pure]

/-- A type in round brackets ends with them, whatever stands behind it. -/
theorem reads_parenthesized (h : ReadsAsType s) (depth : Nat) (ends : Bool)
    (hdepth : s.length ≤ depth) (hgap : takeGap text = (gap, '(' :: (s ++ ')' :: rest))) :
    ∃ tree, ((grammar depth).typeRule ends).Reads text [⟨none, tree⟩] rest ∧
      signatureChars tree.toType = .ok ('(' :: (s ++ [')'])) := by
  have hclose : Closes false (')' :: rest) :=
    ⟨stopsWord_cons (by decide) _, .inr (.of_cons (by decide) _)⟩
  obtain ⟨tree, hread, hsignature⟩ := h.reads depth hdepth (h.gapless _) hclose
  have hword := noWord_of_front hgap (by decide)
  have hmark : ∀ text' : String, text'.toList ≠ [] → text'.toList.head? ≠ some '(' →
      (Rule.token text').Fails text := fun text' hne hhead => .token hgap hhead hne
  refine ⟨_, typeRule_of_others (fun _ => hword.name) (hmark _ (by decide) (by decide))
    (hmark _ (by decide) (by decide))
    (.right (.node (.append (.append hword.keyword)))
      (.right (.orElse (.node (.append (.append (hmark _ (by decide) (by decide)))))
          (.node (.append hword.keyword)))
        (.right (.node (.append hword.keyword)) (.right (.node (.append hword.keyword))
          (.right (.node (.append hword.keyword))
            (.right (.andThen (.node (.append (hmark _ (by decide) (by decide)))))
              (.node (.append (.append (.token hgap) hread) (.mark rfl (by decide)))))))))), ?_⟩
  rw [Tree.toType]
  dsimp only [List.cons_append, List.nil_append]
  rw [firstType, firstType_cons hsignature, signatureChars, hsignature]
  rfl

theorem paren (h : ReadsAsType s) : ReadsAsType ('(' :: (s ++ [')'])) := by
  refine of_typeRule ⟨'(', _, rfl, by decide⟩
    (.cons (by decide) (h.paired.append (.cons (by decide) .nil))) nofun
    fun {depth ends text gap rest} hdepth hgap _ => ?_
  simp only [List.length_cons, List.length_append] at hdepth
  simp only [List.cons_append, List.append_assoc, List.nil_append] at hgap
  exact h.reads_parenthesized _ _ (by omega) hgap

theorem takeGap_blank (h : ReadsAsType s) (rest : List Char) :
    takeGap (' ' :: (s ++ rest)) = ([' '], s ++ rest) := by
  rw [takeGap_space (by decide), h.gapless]

/-- A channel to receive from. -/
theorem receive (h : ReadsAsType s) :
    ReadsAsType ('<' :: '-' :: 'c' :: 'h' :: 'a' :: 'n' :: ' ' :: s) := by
  refine of_typeRule ⟨'<', _, rfl, by decide⟩
    (.append (a := ['<', '-', 'c', 'h', 'a', 'n', ' ']) (.chars (by decide)) h.paired) nofun
    fun {depth ends text gap rest} hdepth hgap hend => ?_
  simp only [List.length_cons] at hdepth
  obtain ⟨tree, hread, hsignature⟩ := h.reads depth (by omega) (h.takeGap_blank _) hend
  have hnone := noWord_of_front hgap (by decide)
  have hword : AtWord (['c', 'h', 'a', 'n'] ++ ' ' :: (s ++ rest)) [] ['c', 'h', 'a', 'n']
      (' ' :: (s ++ rest)) := .of_word (by decide) (stopsWord_cons (by decide) _)
  refine ⟨_, typeRule_of_others (fun _ => hnone.name) (.token hgap (by decide) (by decide))
    (.token hgap (by decide) (by decide))
    (.right (.node (.append (.append hnone.keyword)))
      (.left (.left (.node (.append (.append (.token hgap) (.keyword hword rfl)) (.as hread)))))),
    signatureChars_channel hsignature [_, _] .receive rfl (by simp) rfl⟩

/-- The text of a channel to receive from begins with an arrow. -/
theorem needsBrackets_of_signature {t : TypeExpr} (h : signatureChars t = .ok s)
    (hs : s.head? ≠ some '<') (direction : Direction) : needsBrackets direction t = false := by
  cases direction with
  | send => rfl
  | receive => rfl
  | both =>
      unfold needsBrackets
      split
      case h_1 value _ =>
        obtain ⟨v, -, ⟨⟩⟩ := ok_of_bind h
        exact absurd rfl hs
      case h_2 => rfl

/-- A channel to send to and to receive from. -/
theorem both (h : ReadsAsType s) (hs : s.head? ≠ some '<') :
    ReadsAsType ('c' :: 'h' :: 'a' :: 'n' :: ' ' :: s) := by
  refine of_typeRule ⟨'c', _, rfl, by decide⟩
    (.append (a := ['c', 'h', 'a', 'n', ' ']) (.chars (by decide)) h.paired) nofun
    fun {depth ends text gap rest} hdepth hgap hend => ?_
  simp only [List.length_cons] at hdepth
  obtain ⟨tree, hread, hsignature⟩ := h.reads depth (by omega) (h.takeGap_blank _) hend
  have hword : AtWord text gap ['c', 'h', 'a', 'n'] (' ' :: (s ++ rest)) :=
    ⟨hgap, by decide, stopsWord_cons (by decide) _⟩
  have harrow : (Rule.token "<-").Fails (' ' :: (s ++ rest)) := by
    obtain ⟨c, cs, rfl, -⟩ := h.front
    exact .token (h.takeGap_blank rest) (by simpa using Ne.symm hs) (by decide)
  refine ⟨_, typeRule_of_keyword hword (by decide)
    (.right (.node (.append (.append (.keyword hword (by decide)))))
      (.left (.right (.node (.append (.append (.tokenAtWord hword (by decide)))))
        (.node (.append (.keyword hword rfl)
          (.right (.as (.node (.append (.append harrow))))
            (.right (.append harrow) (.as hread)))))))),
    signatureChars_channel hsignature [_] .both rfl (by simp)
      (needsBrackets_of_signature hsignature hs .both)⟩

/-- The word `chan` is not read from a type that does not begin with it. -/
theorem keyword_chan_fails (h : ReadsAsType s)
    (hs : ∀ rest, word s ≠ some (['c', 'h', 'a', 'n'], rest)) (hrest : StopsWord rest) :
    (Rule.keyword "chan").Fails (' ' :: (s ++ rest)) := by
  refine .scanToken ?_
  obtain ⟨c, cs, heq, -⟩ := h.front
  rw [h.takeGap_blank, Rule.wordThat, word_append_rest (heq ▸ List.cons_ne_nil c cs) hrest]
  cases hfound : word s with
  | none => rfl
  | some found =>
      obtain ⟨w, more⟩ := found
      refine if_neg fun hw => hs more ?_
      have hchan : w = "chan".toList := beq_iff_eq.mp hw
      rw [hfound, hchan]
      rfl

/-- A channel to send to. An arrow between two words `chan` belongs to the second one, so the type
of the elements does not begin with this word. -/
theorem send (h : ReadsAsType s) (hs : ∀ rest, word s ≠ some (['c', 'h', 'a', 'n'], rest)) :
    ReadsAsType ('c' :: 'h' :: 'a' :: 'n' :: '<' :: '-' :: ' ' :: s) := by
  refine of_typeRule ⟨'c', _, rfl, by decide⟩
    (.append (a := ['c', 'h', 'a', 'n', '<', '-', ' ']) (.chars (by decide)) h.paired) nofun
    fun {depth ends text gap rest} hdepth hgap hend => ?_
  simp only [List.length_cons] at hdepth
  obtain ⟨tree, hread, hsignature⟩ := h.reads depth (by omega) (h.takeGap_blank _) hend
  have hword : AtWord text gap ['c', 'h', 'a', 'n'] ('<' :: '-' :: ' ' :: (s ++ rest)) :=
    ⟨hgap, by decide, stopsWord_cons (by decide) _⟩
  have harrow : (Rule.token "<-").Reads ('<' :: '-' :: ' ' :: (s ++ rest))
      [⟨none, .token [] ['<', '-']⟩] (' ' :: (s ++ rest)) :=
    .token (takeGap_stop (by decide) (by decide) _)
  have hchan := h.keyword_chan_fails hs hend.stops
  refine ⟨_, typeRule_of_keyword hword (by decide)
    (.right (.node (.append (.append (.keyword hword (by decide)))))
      (.left (.right (.node (.append (.append (.tokenAtWord hword (by decide)))))
        (.node (.append (.keyword hword rfl)
          (.right (.as (.node (.append (.behind harrow hchan))))
            (.left (.append harrow (.as hread))))))))),
    signatureChars_channel hsignature [_, _] .send rfl (by simp) rfl⟩

theorem typeRule_of_struct {left : List Char} (hword : AtWord text gap "struct".toList left)
    (h : g.structType.Reads text parts rest) : (g.typeRule ends).Reads text parts rest := by
  have hkeyword : ∀ text' ∈ ["map", "chan", "func"], (Rule.keyword text').Fails text :=
    .otherKeywords hword (by decide)
  exact typeRule_of_keyword hword (by decide)
    (.right (.node (.append (.append (hkeyword _ (by decide)))))
      (.right (.orElse (.node (.append (.append (.tokenAtWord hword (by decide)))))
          (.node (.append (hkeyword _ (by decide)))))
        (.right (.node (.append (hkeyword _ (by decide)))) (.left h))))

/-- A struct type without fields. -/
theorem reads_emptyStruct (hgap : takeGap text = (gap, "struct\x7b\x7d".toList ++ rest))
    (depth : Nat) (ends : Bool) : ∃ tree, ((grammar depth).typeRule ends).Reads text
      [⟨none, tree⟩] rest ∧ tree.toType = .struct (some []) := by
  have hword : AtWord text gap "struct".toList ('\x7b' :: '\x7d' :: rest) :=
    ⟨hgap, by decide, stopsWord_cons (by decide) _⟩
  have hfield : (grammar depth).fieldDeclaration.Fails ('\x7d' :: rest) :=
    fieldDeclaration_fails (.of_cons (by decide) rest)
  exact ⟨_, typeRule_of_struct hword (.node (.append (.keyword hword rfl)
    (.node (.append (.append (.mark rfl (by decide)) (.none (.append (.append hfield))))
      (.mark rfl (by decide)))))), rfl⟩

theorem struct : ReadsAsType "struct\x7b\x7d".toList := by
  refine of_typeRule ⟨'s', _, rfl, by decide⟩ (.chars (by decide)) nofun
    fun {depth ends text gap rest} _ hgap _ => ?_
  obtain ⟨tree, hread, htype⟩ := reads_emptyStruct hgap depth ends
  exact ⟨tree, hread, htype ▸ rfl⟩

theorem interface : ReadsAsType "interface\x7b\x7d".toList := by
  refine of_typeRule ⟨'i', _, rfl, by decide⟩ (.chars (by decide)) nofun
    fun {depth ends text gap rest} hdepth hgap hend => ?_
  have hword : AtWord text gap "interface".toList ('\x7b' :: '\x7d' :: rest) :=
    ⟨hgap, by decide, stopsWord_cons (by decide) _⟩
  have hbrace : AtClosing ('\x7d' :: rest) := .of_cons (by decide) rest
  have helement : ((grammar depth).methodElem <|> (grammar depth).typeElem .typeElem true).Fails
      ('\x7d' :: rest) :=
    .orElse (.node (.append (.append (.as hbrace.noWord.name))))
      (.node (.append (type_fails hbrace depth)))
  have hkeyword : ∀ text' ∈ ["map", "chan", "func", "struct"], (Rule.keyword text').Fails text :=
    .otherKeywords hword (by decide)
  refine ⟨_, typeRule_of_keyword hword (by decide)
    (.right (.node (.append (.append (hkeyword _ (by decide)))))
      (.right (.orElse (.node (.append (.append (.tokenAtWord hword (by decide)))))
          (.node (.append (hkeyword _ (by decide)))))
        (.right (.node (.append (hkeyword _ (by decide))))
          (.right (.node (.append (hkeyword _ (by decide))))
            (.left (.node (.append (.keyword hword rfl)
              (.append (.append (.mark rfl (by decide)) (.none (.append (.append helement))))
                (.mark rfl (by decide)))))))))), rfl⟩

theorem generic (h : IsTypeText n) {first : List Char} {others : List (List Char)}
    (hargs : ∀ arg ∈ first :: others, ReadsAsType arg) :
    ReadsAsType (n ++ '[' :: (commaSeparated (first :: others) ++ [']'])) := by
  have hpaired : ∀ text ∈ first :: others, Paired text := fun arg hmem => (hargs arg hmem).paired
  refine of_typeRule ?_ (h.paired.append (Paired.commaSeparated hpaired).brackets) ?_
    fun {depth ends text gap rest} hdepth hgap hend => ?_
  · obtain ⟨c, cs, rfl, hc⟩ := h.front
    exact ⟨c, _, rfl, .inl hc⟩
  · exact fun hhead => absurd hhead (h.head_ne_bracket _)
  simp only [List.length_append, List.length_cons] at hdepth
  simp only [List.append_assoc, List.cons_append, List.nil_append] at hgap
  -- the name ends in front of the bracket
  have hdot : (Rule.onLine ends ++ .token ".").Fails
      ('[' :: (commaSeparated (first :: others) ++ ']' :: rest)) :=
    .onLineAppend (.mark (by decide) (by decide))
  obtain ⟨base, hreadBase, hsignatureBase⟩ := h.reads hgap (stopsWord_cons (by decide) _) hdot
  have hline : (Rule.onLine ends).Reads ('[' :: (commaSeparated (first :: others) ++ ']' :: rest))
      [] ('[' :: (commaSeparated (first :: others) ++ ']' :: rest)) :=
    .onLine (.inr (breakAhead_stop (by decide) (by decide) _))
  have hclose := closes_bracket false rest
  have hitems : ReadsItems ((grammar depth).typeElem .typeElem false)
      (fun text tree => signatureChars tree.toType = .ok text) ',' [' '] (first :: others)
      (']' :: rest) := by
    intro arg args hsuffix s gap hs
    have hmem : arg ∈ first :: others := hsuffix.subset (.head _)
    have hlength := length_le_commaSeparated hmem
    have hbehind := hclose.behindItems args
    obtain ⟨tree, hread, hsignature⟩ := (hargs arg hmem).reads depth (by omega) hs hbehind
    have hchoice : (Rule.onLine false ++ .token "|" ++ (grammar depth).type false).Fails
        (behindItems args (']' :: rest)) :=
      .append (.onLineAppend (hbehind.closing.token (by decide) (by decide)))
    refine ⟨_, .node (.append hread (Rule.Chain.many (.stop hchoice))), ?_⟩
    simp only [List.append_nil]
    exact (congrArg signatureChars (toType_typeElem hsignature)).trans hsignature
  have hcomma : (Rule.token ",").Fails (']' :: rest) := .mark (by decide) (by decide)
  obtain ⟨tree, trees, hreadArgs, htrees⟩ := hitems.sepBy (separates_comma (by decide))
    (fun arg hmem => (hargs arg (.tail _ hmem)).gapless) (.append hcomma)
    ((hargs first (.head _)).gapless _)
  rw [← commaSeparated_append] at hreadArgs
  have hlist : (grammar depth).typeArguments.Reads
      ('[' :: (commaSeparated (first :: others) ++ ']' :: rest))
      [⟨none, .node .typeArguments
        ([⟨none, .token [] ['[']⟩] ++ (⟨none, tree⟩ :: itemParts ',' trees ++ []) ++
          [⟨none, .token [] [']']⟩])⟩] rest :=
    .node (.append (.append (.mark rfl (by decide)) (.append hreadArgs (.none hcomma)))
      (.mark rfl (by decide)))
  refine ⟨_, .left (.andThen hreadBase (.left (.node
    (.append (.append (.as .yield) hline) (.as hlist))))), ?_⟩
  have hsignatures := signaturesOf_itemParts htrees [] [']']
  simp [Tree.toType, roleType, argumentTypes, namedTypes, signatureChars, hsignatureBase,
    hsignatures, bind, Except.bind, pure, Except.pure]

end ReadsAsType

end FluentBuilder.Go
