import Mathlib.Data.List.Chain
import FluentBuilder.Proofs.Balanced
import FluentBuilder.Proofs.TypeReading

/-!
# Reading functions — the parameters and the result of a function are read back

A parameter of a signature has no name, but its type may be a name alone. The reader first tries
names with a type behind the last of them, so a list of parameters is read back only if what stands
behind a name alone does not go on as a type does (`Unnamed`).

* **`reads_parameterList`** — parameters in brackets are read one by one.
* **`reads_result`** — no result, a type, or a list in brackets.
* **`ReadsAsType.func`** — the text of a function is read as its type.
-/

namespace FluentBuilder.Go

open Grammar

/-! ## What stands behind a name -/

/-- Where a parameter ends. -/
def paramEnd : Rule := .ahead fun s => ((.token "," <|> .token ")" : Rule).read s).isSome

/-- Behind a name this text begins with neither another name nor a type that ends the parameter. -/
structure NoType (more : List Char) : Prop where
  marks (rest : List Char) : ∀ text ∈ [",", "..."], (Rule.token text).Fails (more ++ rest)
  type (depth : Nat) {rest : List Char} (hdepth : more.length ≤ depth) (hend : Closes false rest) :
    ((grammar depth).type false ++ paramEnd).Fails (more ++ rest)

namespace NoType

variable {s args name : List Char}

/-- A point goes on with the name. -/
theorem selector (h : IsWord name) (more : List Char) : NoType ('.' :: (name ++ more)) := by
  have hmark : ∀ rest (text : String), text.toList.head? ≠ some '.' ∧ text.toList ≠ [] →
      (Rule.token text).Fails ('.' :: (name ++ more) ++ rest) := fun _ _ h => .mark h (by decide)
  have hdots : ∀ rest, (Rule.token "...").Fails ('.' :: (name ++ more) ++ rest) := by
    intro rest
    obtain ⟨c, cs, rfl, hc, -⟩ := isWord_iff.mp h
    have hdot : c ≠ '.' := by
      rintro rfl
      exact absurd hc (by decide)
    refine .scanToken ?_
    rw [List.cons_append, takeGap_stop (by decide) (by decide)]
    simp [mark, dropExact, hdot.symm]
  refine ⟨fun rest => List.forall_mem_cons.mpr ⟨hmark rest _ (by decide),
    List.forall_mem_singleton.mpr (hdots rest)⟩, fun depth rest _ _ => .append ?_⟩
  exact type_fails_of_marks (noWord_of_front (takeGap_stop (by decide) (by decide) _) (by decide))
    (fun text htext => hmark rest text ((by decide : ∀ text ∈ ["*", "[", "<-", "~", "("],
      text.toList.head? ≠ some '.' ∧ text.toList ≠ []) text htext)) depth

/-- A brace goes on with a type that has been read. -/
theorem brace (cs : List Char) : NoType ('\x7b' :: cs) where
  marks rest := .tokens (takeGap_stop (by decide) (by decide) _) (by decide)
  type depth rest _ _ := .append (type_fails (.of_cons (by decide) _) depth)

/-- Behind types in square brackets, where the length of an array is read, no elements follow. -/
theorem brackets (hargs : Paired args) (hfront : TypeFront args) :
    NoType ('[' :: (args ++ [']'])) := by
  refine ⟨fun rest => .tokens (takeGap_stop (by decide) (by decide) _) (by decide),
    fun depth rest _ hend => .append ?_⟩
  rw [List.cons_append, List.append_assoc, List.singleton_append]
  have hgap : takeGap ('[' :: (args ++ ']' :: rest)) = ([], '[' :: (args ++ ']' :: rest)) :=
    takeGap_stop (by decide) (by decide) _
  have hopen : (Rule.token "[").Reads ('[' :: (args ++ ']' :: rest)) [⟨none, .token [] ['[']⟩]
      (args ++ ']' :: rest) := .mark rfl (by decide)
  have hclose : (Rule.token "]").Fails (args ++ ']' :: rest) := by
    obtain ⟨c, cs, rfl, hspace, hslash, hclosing, -⟩ := hfront.plain
    refine .mark ⟨?_, by decide⟩ ⟨hspace, hslash⟩
    rintro ⟨⟩
    exact hclosing (by decide)
  cases depth with
  | zero => exact .never
  | succ depth =>
      have harray : ((grammar depth).arrayType false).Fails ('[' :: (args ++ ']' :: rest)) := by
        refine .node ?_
        cases hread : (enclosed "[" (((grammar depth).expr .inside).as .length) "]").read
            ('[' :: (args ++ ']' :: rest)) with
        | none => exact .append hread
        | some found =>
            have hlength : (((grammar depth).expr .inside).as .length).Balanced :=
              .as (grammar_balanced depth).expr
            have hleft : found.2 = rest := hlength.enclosed_ends hread hgap (hargs.closes rest)
            exact .behind hread (.as (hleft ▸ type_fails hend.closing depth))
      have htype : ((grammar depth).typeRule false).Fails ('[' :: (args ++ ']' :: rest)) :=
        typeRule_fails_of_mark hgap (by decide)
          (fun _ => ⟨.node (.append (.behind hopen hclose)), harray⟩) (by simp) (by simp)
      exact htype

/-- An arrow in front of a type is no channel to receive from without the word `chan`. -/
theorem arrow (h : ReadsAsType s) (hs : ∀ rest, word s ≠ some (['c', 'h', 'a', 'n'], rest)) :
    NoType ('<' :: '-' :: ' ' :: s) := by
  refine ⟨fun rest => .tokens (takeGap_stop (by decide) (by decide) _) (by decide),
    fun depth rest _ hend => .append ?_⟩
  have hgap : takeGap ('<' :: '-' :: ' ' :: (s ++ rest)) = ([], '<' :: '-' :: ' ' :: (s ++ rest)) :=
    takeGap_stop (by decide) (by decide) _
  have harrow : (Rule.token "<-" ++ Rule.keyword "chan").Fails
      ('<' :: '-' :: ' ' :: (s ++ rest)) :=
    .behind (.token hgap) (h.keyword_chan_fails hs hend.stops)
  cases depth with
  | zero => exact .never
  | succ depth =>
      have htype : ((grammar depth).typeRule false).Fails ('<' :: '-' :: ' ' :: (s ++ rest)) :=
        typeRule_fails_of_mark hgap (by decide) (by simp) (fun _ => harrow) (by simp)
      exact htype

end NoType

/-! ## Parameters -/

/-- The text of a parameter without a name: the name of a type, or a text of a type whose first
word, if it is a name, is not read as that of the parameter. -/
inductive ReadsAsParam : List Char → Prop
  | name {name : String} (h : IsTypeName name) : ReadsAsParam name.toList
  | type {s : List Char} (h : ReadsAsType s)
      (hword : ∀ w more, word s = some (w, more) →
        w ∈ typeKeywords.map String.toList ∨ NoType more) : ReadsAsParam s
  | variadic {s : List Char} (h : ReadsAsType s) : ReadsAsParam ('.' :: '.' :: '.' :: s)

/-- Behind its first word a text does not go on as a type does. -/
def EndsAtWord (text : List Char) : Prop :=
  ∀ w more, word text = some (w, more) → more = [] ∨ NoType more

/-- Texts of parameters that are not read as names with a type behind the last one: what stands
behind a name alone does not go on as a type does behind its first word. -/
def Unnamed (texts : List (List Char)) : Prop :=
  texts.IsChain fun text next => IsWord text → EndsAtWord next

/-- A parameter and whether it takes any number of values, which its text begins with. -/
def paramItem (text : List Char) : Bool × List Char := (text.head? == some '.', text)

/-- A declaration has one parameter, with a text. -/
def IsParam (text : List Char) (tree : Tree) : Prop :=
  paramSignatures (paramsOf [⟨none, tree⟩]) = .ok [paramItem text]

namespace ReadsAsParam

variable {text : List Char}

theorem cases_type (h : ReadsAsParam text) :
    ReadsAsType text ∨ ∃ s, text = '.' :: '.' :: '.' :: s ∧ ReadsAsType s := by
  cases h with
  | name h => exact .inl (.name (.plain h))
  | type h => exact .inl h
  | variadic h => exact .inr ⟨_, rfl, h⟩

theorem gapless (h : ReadsAsParam text) : Gapless text := by
  obtain h | ⟨s, rfl, -⟩ := h.cases_type
  · exact h.gapless
  · exact fun rest => takeGap_stop (by decide) (by decide) _

theorem ne_nil (h : ReadsAsParam text) : text ≠ [] := by
  obtain h | ⟨s, rfl, -⟩ := h.cases_type
  · obtain ⟨c, cs, rfl, -⟩ := h.front
    exact nofun
  · exact nofun

theorem paired (h : ReadsAsParam text) : Paired text := by
  obtain h | ⟨s, rfl, hs⟩ := h.cases_type
  · exact h.paired
  · exact .cons (by decide) (.cons (by decide) (.cons (by decide) hs.paired))

end ReadsAsParam

section

variable {text v s gap rest first : List Char} {others : List (List Char)} {name : String}
  {depth : Nat}

/-- A run of names ends where no type follows that ends the parameter. -/
theorem names_chain (hfirst : IsWord first) (hparams : ∀ text ∈ others, ReadsAsParam text)
    (hlengths : ∀ text ∈ others, text.length ≤ depth) (hunnamed : Unnamed (first :: others))
    (hend : Closes false (')' :: rest)) :
    ∃ parts left,
      (Rule.token "," ++ (Rule.name .identifier []).as .name).Chain
        (behindItems others (')' :: rest)) parts left ∧
      ((grammar depth).type false ++ paramEnd).Fails left := by
  induction others generalizing first with
  | nil =>
      exact ⟨[], _, .stop (.append (.mark (by decide) (by decide))),
        .append (type_fails hend.closing depth)⟩
  | cons text others ih =>
      rw [List.forall_mem_cons] at hparams hlengths
      have hgap : takeGap (' ' :: (text ++ behindItems others (')' :: rest))) =
          ([' '], text ++ behindItems others (')' :: rest)) := by
        rw [takeGap_space (by decide), hparams.1.gapless]
      have hmark : (Rule.token ",").Reads (behindItems (text :: others) (')' :: rest))
          [⟨none, .token [] [',']⟩] (' ' :: (text ++ behindItems others (')' :: rest))) :=
        .mark rfl (by decide)
      have hbehind := hend.behindItems others
      -- the run goes on with the first word of the next text, and what stands behind it decides
      cases hword : word text with
      | none =>
          have hnoWord : NoWord (' ' :: (text ++ behindItems others (')' :: rest))) := by
            rw [NoWord, hgap, word_append_rest hparams.1.ne_nil hbehind.stops, hword]
            rfl
          exact ⟨[], _, .stop (.behind hmark (.as hnoWord.name)),
            .append (type_fails (hend.behindItems (text :: others)).closing depth)⟩
      | some found =>
          obtain ⟨w, more⟩ := found
          obtain ⟨heq, hw, hmore⟩ := eq_append_of_word hword
          have hatWord : AtWord (' ' :: (text ++ behindItems others (')' :: rest))) [' '] w
              (more ++ behindItems others (')' :: rest)) :=
            ⟨by rw [hgap, heq, List.append_assoc], hw, hmore.append hbehind.stops⟩
          have hname : (Rule.token "," ++ (Rule.name .identifier []).as .name).Reads
              (behindItems (text :: others) (')' :: rest)) _ _ := hmark.append (.anyNameAs hatWord)
          have hlength : w.length + more.length = text.length := by rw [heq, List.length_append]
          have hshorter : (more ++ behindItems others (')' :: rest)).length <
              (behindItems (text :: others) (')' :: rest)).length := by
            rw [behindItems_cons]
            simp only [List.length_cons, List.length_append]
            omega
          have hchain := List.isChain_cons_cons.mp hunnamed
          rcases hchain.1 hfirst w more hword with rfl | hnone
          · rw [List.append_nil] at heq
            obtain ⟨parts, left, hnames, hleft⟩ := ih (heq ▸ hw) hparams.2 hlengths.2 hchain.2
            exact ⟨_, left, .step hname hshorter hnames, hleft⟩
          · exact ⟨_, _, .step hname hshorter (.stop (.append (hnone.marks _ _ (.head _)))),
              hnone.type depth (by omega) hbehind⟩

/-- A type alone is a parameter if no names with a type behind them are read first. -/
theorem reads_parameter {g : Grammar} {tree : Tree} (hvariadic : g.variadicParameter.Fails s)
    (hnames : (.node .parameterDeclaration ((Rule.name .identifier typeKeywords).as .name ++
      (Rule.token "," ++ (Rule.name .identifier []).as .name).many ++
        (g.type false).as .type) ++ paramEnd : Rule).Fails s)
    (htype : (g.type false).Reads s [⟨none, tree⟩] rest)
    (hsignature : signatureChars tree.toType = .ok text) (htext : text.head? ≠ some '.') :
    ∃ tree, (g.variadicParameter <|> g.parameterDeclaration).Reads s [⟨none, tree⟩] rest ∧
      IsParam text tree := by
  refine ⟨_, .right hvariadic (.right hnames (.node (.as htype))), ?_⟩
  simp [IsParam, paramsOf, textsOf, roleType, paramSignatures, hsignature, paramItem, htext, bind,
    Except.bind, pure, Except.pure]

/-- Names are no parameter if no type behind them ends it. -/
theorem named_fails {g : Grammar} {names : Rule} {parts : List Part} {kind : Kind} {role : Role}
    (hnames : names.Reads s parts rest) (htype : (g.type false ++ paramEnd).Fails rest) :
    (.node kind (names ++ (g.type false).as role) ++ paramEnd : Rule).Fails s := by
  cases hread : (g.type false).read rest with
  | none => exact .append (.node (.behind hnames (.as hread)))
  | some found =>
      have hend : paramEnd.Fails found.2 := by
        cases hahead : paramEnd.read found.2 with
        | none => exact hahead
        | some more => cases htype.symm.trans (Rule.Reads.append hread hahead)
      exact .behind (.node (.append hnames (.as hread))) hend

/-- A name alone is read as a type, for a type behind a list of names is missing. -/
theorem reads_plainParameter (h : IsTypeName name) (hothers : ∀ other ∈ others, ReadsAsParam other)
    (hlengths : ∀ other ∈ others, other.length ≤ depth)
    (hunnamed : Unnamed (name.toList :: others)) (hlength : name.toList.length ≤ depth)
    (hs : takeGap s = (gap, name.toList ++ behindItems others (')' :: rest))) :
    ∃ tree, ((grammar depth).variadicParameter <|> (grammar depth).parameterDeclaration).Reads s
      [⟨none, tree⟩] (behindItems others (')' :: rest)) ∧ IsParam name.toList tree := by
  have hend : Closes false (')' :: rest) :=
    ⟨stopsWord_cons (by decide) _, .inr (.of_cons (by decide) _)⟩
  have hbehind := hend.behindItems others
  have htype := ReadsAsType.name (.plain h)
  obtain ⟨tree, hread, hsignature⟩ := htype.reads _ hlength hs hbehind
  obtain ⟨c, cs, heq, -, -, -, hdot⟩ := htype.front_plain
  have hword : AtWord s gap name.toList (behindItems others (')' :: rest)) :=
    ⟨hs, h.1, hbehind.stops⟩
  obtain ⟨parts, left, hchain, hleft⟩ := names_chain h.1 hothers hlengths hunnamed hend
  have hname : ((Rule.name .identifier typeKeywords).as .name).Reads s _ _ :=
    .nameAs hword h.notMem
  exact reads_parameter
    (.node (.append (.behind (.some hname) (hbehind.closing.token (by decide) (by decide)))))
    (named_fails (.append hname hchain.many) hleft) hread hsignature (by simpa [heq] using hdot)

/-- A type whose first word is not read as the name of a parameter. -/
theorem reads_typeParameter (h : ReadsAsType text)
    (hfirst : ∀ w more, word text = some (w, more) →
      w ∈ typeKeywords.map String.toList ∨ NoType more)
    (hend : Closes false rest) (hlength : text.length ≤ depth)
    (hs : takeGap s = (gap, text ++ rest)) :
    ∃ tree, ((grammar depth).variadicParameter <|> (grammar depth).parameterDeclaration).Reads s
      [⟨none, tree⟩] rest ∧ IsParam text tree := by
  obtain ⟨tree, hread, hsignature⟩ := h.reads _ hlength hs hend
  obtain ⟨c, cs, heq, -, -, -, hdot⟩ := h.front_plain
  have hdots : (Rule.token "...").Fails s := by
    rw [heq] at hs
    exact .token hs (by simpa using hdot.symm) (by decide)
  have htext : text.head? ≠ some '.' := by simpa [heq] using hdot
  have hnoName : (Rule.name .identifier typeKeywords).Fails s →
      ∃ tree, ((grammar depth).variadicParameter <|> (grammar depth).parameterDeclaration).Reads s
        [⟨none, tree⟩] rest ∧ IsParam text tree := fun hname =>
    reads_parameter (.node (.append (.behind (.none (.as hname)) hdots)))
      (.append (.node (.append (.append (.as hname))))) hread hsignature htext
  cases hword : word text with
  | none =>
      have hnoWord : NoWord s := by
        rw [NoWord, hs, word_append_rest (by simp [heq]) hend.stops, hword]
        rfl
      exact hnoName hnoWord.name
  | some found =>
      obtain ⟨w, more⟩ := found
      obtain ⟨happend, hw, hmore⟩ := eq_append_of_word hword
      have hatWord : AtWord s gap w (more ++ rest) :=
        ⟨by rw [hs, happend, List.append_assoc], hw, hmore.append hend.stops⟩
      by_cases hkeyword : w ∈ typeKeywords.map String.toList
      · exact hnoName (.name hatWord hkeyword)
      · have hlengths := congrArg List.length happend
        rw [List.length_append] at hlengths
        have hnone := (hfirst w more hword).resolve_left hkeyword
        have hname : ((Rule.name .identifier typeKeywords).as .name).Reads s _ (more ++ rest) :=
          .nameAs hatWord hkeyword
        exact reads_parameter
          (.node (.append (.behind (.some hname) (hnone.marks _ _ (.tail _ (.head _))))))
          (named_fails (.append hname (Rule.Chain.many
            (.stop (.append (hnone.marks _ _ (.head _)))))) (hnone.type depth (by omega) hend))
          hread hsignature htext

theorem reads_variadicParameter (h : ReadsAsType v) (hend : Closes false rest)
    (hlength : v.length ≤ depth) (hs : takeGap s = (gap, '.' :: '.' :: '.' :: v ++ rest)) :
    ∃ tree, ((grammar depth).variadicParameter <|> (grammar depth).parameterDeclaration).Reads s
      [⟨none, tree⟩] rest ∧ IsParam ('.' :: '.' :: '.' :: v) tree := by
  obtain ⟨tree, hread, hsignature⟩ := h.reads depth hlength (h.gapless _) hend
  have hnoWord := noWord_of_front hs (by decide)
  refine ⟨_, .left (.node (.append (.append (.none (.as hnoWord.name)) (.token hs))
    (.as hread))), ?_⟩
  simp [IsParam, paramsOf, textsOf, roleType, paramSignatures, hsignature, paramItem, bind,
    Except.bind, pure, Except.pure]

/-- **A parameter is read without a name.** -/
theorem ReadsAsParam.reads (h : ReadsAsParam text) (hothers : ∀ other ∈ others, ReadsAsParam other)
    (hlengths : ∀ other ∈ others, other.length ≤ depth) (hunnamed : Unnamed (text :: others))
    (hlength : text.length ≤ depth)
    (hs : takeGap s = (gap, text ++ behindItems others (')' :: rest))) :
    ∃ tree, ((grammar depth).variadicParameter <|> (grammar depth).parameterDeclaration).Reads s
      [⟨none, tree⟩] (behindItems others (')' :: rest)) ∧ IsParam text tree := by
  have hend : Closes false (')' :: rest) :=
    ⟨stopsWord_cons (by decide) _, .inr (.of_cons (by decide) _)⟩
  have hbehind := hend.behindItems others
  cases h with
  | name h => exact reads_plainParameter h hothers hlengths hunnamed hlength hs
  | type h hfirst => exact reads_typeParameter h hfirst hbehind hlength hs
  | variadic h =>
      simp only [List.length_cons] at hlength
      exact reads_variadicParameter h hbehind (by omega) hs

end

theorem paramsOf_cons (part : Part) (rest : List Part) :
    paramsOf (part :: rest) = paramsOf [part] ++ paramsOf rest := by
  obtain ⟨role, tree⟩ := part
  cases tree with
  | token gap text => simp [paramsOf]
  | leaf kind gap text => simp [paramsOf]
  | node kind parts => cases kind <;> simp [paramsOf]

theorem paramsOf_token (role : Option Role) (gap mark : List Char) (rest : List Part) :
    paramsOf (⟨role, .token gap mark⟩ :: rest) = paramsOf rest := by
  simp [paramsOf]

theorem paramSignatures_append {params others : List Param} {items more : List (Bool × List Char)}
    (h : paramSignatures params = .ok items) (hothers : paramSignatures others = .ok more) :
    paramSignatures (params ++ others) = .ok (items ++ more) := by
  induction params generalizing items with
  | nil =>
      cases h
      exact hothers
  | cons param params ih =>
      obtain ⟨type, variadic⟩ := param
      obtain ⟨text, htext, h⟩ := ok_of_bind h
      obtain ⟨texts, htexts, ⟨⟩⟩ := ok_of_bind h
      rw [List.cons_append, paramSignatures, htext, ih htexts]
      rfl

/-- The parameters of declarations with commas between them. -/
theorem paramSignatures_itemParts {texts : List (List Char)} {trees : List Tree}
    (h : List.Forall₂ IsParam texts trees) {gap mark : List Char} :
    paramSignatures (paramsOf (itemParts ',' trees ++ [⟨none, .token gap mark⟩])) =
      .ok (texts.map paramItem) := by
  induction h with
  | nil => rfl
  | @cons text tree texts trees htree htrees ih =>
      rw [itemParts, List.cons_append, paramsOf_token, List.cons_append, paramsOf_cons]
      exact paramSignatures_append htree ih

/-- Parameters in round brackets are read one after the other. -/
theorem reads_parameterList {texts : List (List Char)} {rest : List Char} (depth : Nat)
    (hparams : ∀ text ∈ texts, ReadsAsParam text) (hunnamed : Unnamed texts)
    (hlength : (commaSeparated texts).length ≤ depth) {s gap : List Char}
    (hs : takeGap s = (gap, '(' :: (commaSeparated texts ++ ')' :: rest))) :
    ∃ parts, (grammar depth).parameterList.Reads s [⟨none, .node .parameterList parts⟩] rest ∧
      paramSignatures (paramsOf parts) = .ok (texts.map paramItem) := by
  have hcomma : (Rule.token ",").Fails (')' :: rest) := .mark (by decide) (by decide)
  have hclose : (Rule.token ")").Reads (')' :: rest) [⟨none, .token [] [')']⟩] rest :=
    .mark rfl (by decide)
  cases texts with
  | nil =>
      have hclosing : AtClosing (')' :: rest) := .of_cons (by decide) rest
      have hitem : ((grammar depth).variadicParameter <|>
          (grammar depth).parameterDeclaration).Fails (')' :: rest) := by
        have hname : ∀ kind keywords, (Rule.name kind keywords).Fails (')' :: rest) := fun _ _ =>
          hclosing.noWord.name
        refine .orElse (.node (.append (.behind (.none (.as (hname _ _))) ?_)))
          (.orElse (.append (.node (.append (.append (.as (hname _ _))))))
            (.node (.as (type_fails hclosing depth))))
        exact hclosing.token (by decide) (by decide)
      exact ⟨_, .node (.append (.append (.token hs)
        (.append (.none (.append hitem)) (.none hcomma))) hclose), rfl⟩
  | cons text texts =>
      have hlengths : ∀ other ∈ text :: texts, other.length ≤ depth := fun other hmem =>
        (length_le_commaSeparated hmem).trans hlength
      have hitems : ReadsItems
          ((grammar depth).variadicParameter <|> (grammar depth).parameterDeclaration) IsParam
          ',' [' '] (text :: texts) (')' :: rest) := by
        intro other others hsuffix s gap hs
        have hmem := hsuffix.subset (.head _)
        exact (hparams _ hmem).reads
          (fun next hnext => hparams next (hsuffix.subset (.tail _ hnext)))
          (fun next hnext => hlengths next (hsuffix.subset (.tail _ hnext)))
          (hunnamed.suffix hsuffix) (hlengths _ hmem) hs
      obtain ⟨tree, trees, hread, htrees⟩ := hitems.sepBy (separates_comma (by decide))
        (fun other hmem => (hparams other (.tail _ hmem)).gapless) (.append hcomma)
        ((hparams text (.head _)).gapless _)
      rw [← commaSeparated_append] at hread
      refine ⟨_, .node (.append (.append (.token hs)
        (.append (.some hread) (.none hcomma))) hclose), ?_⟩
      obtain ⟨htree, htrees⟩ := List.forall₂_cons.mp htrees
      rw [List.append_nil, List.cons_append, List.nil_append, List.cons_append, paramsOf_token,
        List.cons_append, paramsOf_cons]
      exact paramSignatures_append htree (paramSignatures_itemParts htrees)

/-! ## Functions -/

/-- The text of the results of a function. -/
def resultsText (texts : List (List Char)) : List Char := resultText (texts.map paramItem)

/-- A function has no result, one that stands alone, or a list of them. -/
theorem resultsText_cases (texts : List (List Char)) :
    (texts = [] ∧ resultsText texts = []) ∨
      (∃ text, texts = [text] ∧ text.head? ≠ some '.' ∧ resultsText texts = ' ' :: text) ∨
        resultsText texts = ' ' :: '(' :: (commaSeparated texts ++ [')']) := by
  match texts with
  | [] => exact .inl ⟨rfl, rfl⟩
  | [text] =>
      by_cases hdot : text.head? = some '.'
      · exact .inr (.inr (by simp [resultsText, resultText, paramItem, hdot]))
      · refine .inr (.inl ⟨text, rfl, hdot, ?_⟩)
        rw [resultsText, List.map_singleton, paramItem, beq_eq_false_iff_ne.mpr hdot, resultText]
  | text :: next :: others =>
      exact .inr (.inr (by simp [resultsText, resultText, paramItem, Function.comp_def]))

/-- A result alone is not one in brackets, which would be read as a list with one result. -/
def Unbracketed (texts : List (List Char)) : Prop :=
  ∀ text, texts = [text] → text.head? ≠ some '('

theorem beginsType_closing {s : List Char} (h : AtClosing s) : beginsType s = false := by
  obtain ⟨gap, c, rest, hs, hc⟩ := h
  have hplain : ∀ c ∈ closingMarks, c ≠ '<' ∧
      (Text.isIdentStart c || ['(', '[', '*', '~'].contains c) = false := by
    decide
  unfold beginsType
  rw [hs]
  split
  case h_1 => rfl
  case h_2 heq => exact absurd (List.cons.inj heq).1 (hplain c hc).1
  case h_3 heq =>
    obtain ⟨rfl, -⟩ := List.cons.inj heq
    exact (hplain c hc).2

/-- A type is no list of parameters. -/
theorem resultParams_type {t : Tree} {s : List Char} (h : signatureChars t.toType = .ok s) :
    resultParams [⟨some .result, t⟩] = [⟨t.toType, false⟩] := by
  cases t with
  | token gap text => cases h
  | leaf kind gap text => rfl
  | node kind parts =>
      cases kind with
      | parameterList => cases h
      | _ => rfl

section

variable {s rest : List Char} {texts : List (List Char)} {ends : Bool} (depth : Nat)

/-- Where a type ends, a function has no result. -/
theorem reads_no_result (h : Closes ends rest) :
    ((grammar depth).result ends).Reads rest [] rest := by
  have hresult : (Rule.onLine ends ++
      (Rule.notAhead (.token "(") ++ ((grammar depth).type ends).as .result <|>
        (grammar depth).parameterList.as .result)).Fails rest := by
    refine h.onLine fun hclosing => ?_
    have hbracket : (Rule.token "(").Fails rest := hclosing.token (by decide) (by decide)
    exact .orElse (.behind (.notAhead hbracket) (.as (type_fails hclosing depth)))
      (.as (.node (.append (.append hbracket))))
  refine .right hresult (.ahead ?_)
  rcases h.front with ⟨rfl, hbreak⟩ | hclosing
  · simp [hbreak]
  · simp [beginsType_closing hclosing]

/-- A type that does not begin with a round bracket is the result. -/
theorem reads_result_type (h : ReadsAsType s) (hbracket : s.head? ≠ some '(')
    (hlength : s.length ≤ depth) (hend : Closes ends rest) :
    ∃ parts, ((grammar depth).result ends).Reads (' ' :: (s ++ rest)) parts rest ∧
      paramSignatures (resultParams parts) = .ok [(false, s)] := by
  obtain ⟨tree, hread, hsignature⟩ := h.reads _ hlength (h.takeGap_blank rest) hend
  obtain ⟨c, cs, rfl, hspace, hslash, -⟩ := h.front_plain
  have hline : breakAhead (' ' :: (c :: cs ++ rest)) = false :=
    breakAhead_blank hspace hslash _
  have hmark : (Rule.token "(").Fails (' ' :: (c :: cs ++ rest)) :=
    .token (h.takeGap_blank rest) (by simpa using Ne.symm hbracket) (by decide)
  refine ⟨_, .left (.append (.onLine (.inr hline))
    (.left (.append (.notAhead hmark) (.as hread)))), ?_⟩
  simp [resultParams_type hsignature, paramSignatures, hsignature, bind, Except.bind, pure,
    Except.pure]

/-- Results in brackets are read as a list. -/
theorem reads_result_list (hparams : ∀ text ∈ texts, ReadsAsParam text) (hunnamed : Unnamed texts)
    (hlength : (commaSeparated texts).length ≤ depth) :
    ∃ parts, ((grammar depth).result ends).Reads
      (' ' :: '(' :: (commaSeparated texts ++ ')' :: rest)) parts rest ∧
      paramSignatures (resultParams parts) = .ok (texts.map paramItem) := by
  have hgap : takeGap (' ' :: '(' :: (commaSeparated texts ++ ')' :: rest)) =
      ([' '], '(' :: (commaSeparated texts ++ ')' :: rest)) :=
    takeGap_blank (by decide) (by decide) _
  obtain ⟨parts, hread, hsignatures⟩ := reads_parameterList depth hparams hunnamed hlength hgap
  have hline : breakAhead (' ' :: '(' :: (commaSeparated texts ++ ')' :: rest)) = false :=
    breakAhead_blank (by decide) (by decide) _
  have hmark : (Rule.token "(").Reads (' ' :: '(' :: (commaSeparated texts ++ ')' :: rest))
      [⟨none, .token [' '] ['(']⟩] (commaSeparated texts ++ ')' :: rest) := .token hgap
  exact ⟨_, .left (.append (.onLine (.inr hline))
    (.right (.append (.notAhead hmark)) (.as hread))), hsignatures⟩

theorem ReadsAsParam.readsAsType {text : List Char} (h : ReadsAsParam text)
    (hdot : text.head? ≠ some '.') : ReadsAsType text := by
  obtain h | ⟨s, rfl, -⟩ := h.cases_type
  · exact h
  · exact absurd rfl hdot

/-- **The results of a function** are read up to what ends its type. -/
theorem reads_result (hparams : ∀ text ∈ texts, ReadsAsParam text) (hunnamed : Unnamed texts)
    (hbrackets : Unbracketed texts) (hlength : (resultsText texts).length ≤ depth)
    (hend : Closes ends rest) :
    ∃ parts, ((grammar depth).result ends).Reads (resultsText texts ++ rest) parts rest ∧
      paramSignatures (resultParams parts) = .ok (texts.map paramItem) := by
  rcases resultsText_cases texts with ⟨rfl, -⟩ | ⟨text, rfl, hdot, htext⟩ | htext
  · exact ⟨[], reads_no_result depth hend, rfl⟩
  · rw [htext] at hlength ⊢
    obtain ⟨parts, hread, hsignature⟩ := reads_result_type depth
      ((hparams text (.head _)).readsAsType hdot) (hbrackets text rfl)
      (Nat.le_of_succ_le hlength) hend
    refine ⟨parts, hread, ?_⟩
    rw [List.map_singleton, paramItem, beq_eq_false_iff_ne.mpr hdot]
    exact hsignature
  · rw [htext] at hlength ⊢
    simp only [List.length_cons, List.length_append] at hlength
    simp only [List.cons_append, List.append_assoc, List.nil_append]
    exact reads_result_list depth hparams hunnamed (by omega)

/-- The brackets of the text behind the word `func` come in pairs. -/
theorem paired_func {params results : List (List Char)}
    (hparams : ∀ text ∈ params, ReadsAsParam text)
    (hresults : ∀ text ∈ results, ReadsAsParam text) :
    Paired ('f' :: 'u' :: 'n' :: 'c' :: '(' ::
      (commaSeparated params ++ ')' :: resultsText results)) := by
  have hlist : ∀ {texts : List (List Char)}, (∀ text ∈ texts, ReadsAsParam text) →
      Paired (commaSeparated texts) := fun h =>
    .commaSeparated fun text hmem => (h text hmem).paired
  have hresult : Paired (resultsText results) := by
    rcases resultsText_cases results with ⟨-, htext⟩ | ⟨text, rfl, -, htext⟩ | htext
    · exact htext ▸ .nil
    · exact htext ▸ .cons (by decide) (hresults text (.head _)).paired
    · exact htext ▸ .cons (by decide) (.cons (by decide)
        ((hlist hresults).append (.cons (by decide) .nil)))
  exact .append (a := ['f', 'u', 'n', 'c', '(']) (.chars (by decide))
    ((hlist hparams).append (.cons (by decide) hresult))

/-- A function type. -/
theorem ReadsAsType.func {params results : List (List Char)}
    (hparams : ∀ text ∈ params, ReadsAsParam text) (hunnamed : Unnamed params)
    (hresults : ∀ text ∈ results, ReadsAsParam text) (hunnamed' : Unnamed results)
    (hbrackets : Unbracketed results) :
    ReadsAsType ('f' :: 'u' :: 'n' :: 'c' :: '(' ::
      (commaSeparated params ++ ')' :: resultsText results)) := by
  refine of_typeRule ⟨'f', _, rfl, by decide⟩ (paired_func hparams hresults) nofun
    fun {depth ends text gap rest} hdepth hgap hend => ?_
  simp only [List.length_cons, List.length_append] at hdepth
  simp only [List.cons_append, List.append_assoc] at hgap
  have hword : AtWord text gap "func".toList
      ('(' :: (commaSeparated params ++ ')' :: (resultsText results ++ rest))) :=
    ⟨hgap, by decide, stopsWord_cons (by decide) _⟩
  have hbracket := takeGap_stop (c := '(') (by decide) (by decide)
    (commaSeparated params ++ ')' :: (resultsText results ++ rest))
  obtain ⟨ps, hreadParams, hps⟩ := reads_parameterList depth hparams hunnamed (by omega) hbracket
  obtain ⟨rs, hreadResults, hrs⟩ := reads_result depth hresults hunnamed' hbrackets
    (by omega) hend
  have hkeyword : ∀ text' ∈ ["map", "chan"], (Rule.keyword text').Fails text :=
    .otherKeywords hword (by decide)
  refine ⟨_, typeRule_of_keyword hword (by decide)
    (.right (.node (.append (.append (hkeyword _ (by decide)))))
      (.right (.orElse (.node (.append (.append (.tokenAtWord hword (by decide)))))
          (.node (.append (hkeyword _ (by decide)))))
        (.left (.node (.append (.keyword hword rfl)
          (.append (.as hreadParams) hreadResults)))))), ?_⟩
  have htype : ∀ gap mark role, (Tree.node .functionType
      (⟨none, .token gap mark⟩ :: ⟨some .parameters, .node role ps⟩ :: rs)).toType =
        .func (paramsOf ps) (resultParams rs) := fun _ _ _ => rfl
  refine (congrArg signatureChars (htype _ _ _)).trans ?_
  have hitems : ∀ texts : List (List Char), (texts.map paramItem).map (·.2) = texts := by
    intro texts
    simp [paramItem, Function.comp_def]
  rw [signatureChars, hps, hrs]
  simp [hitems, resultsText, bind, Except.bind, pure, Except.pure]

/-- No parameter ends in front of results. -/
theorem paramEnd_fails {results : List (List Char)} (hresults : ∀ text ∈ results, ReadsAsParam text)
    (hne : results ≠ []) : paramEnd.Fails (resultsText results ++ rest) := by
  have hfront : ∃ c cs, takeGap (resultsText results ++ rest) = ([' '], c :: cs) ∧
      c ∉ closingMarks := by
    rcases resultsText_cases results with ⟨rfl, -⟩ | ⟨text, rfl, hdot, htext⟩ | htext
    · exact absurd rfl hne
    · obtain ⟨c, cs, rfl, hspace, hslash, hclosing, -⟩ :=
        ((hresults text (.head _)).readsAsType hdot).front_plain
      exact ⟨c, cs ++ rest, by rw [htext]; exact takeGap_blank hspace hslash _, hclosing⟩
    · exact ⟨'(', _, by rw [htext]; exact takeGap_blank (by decide) (by decide) _, by decide⟩
  obtain ⟨c, cs, hgap, hc⟩ := hfront
  have hmark : ∀ d ∈ closingMarks, c ≠ d := fun d hd heq => hc (heq ▸ hd)
  have hnone : (.token "," <|> .token ")" : Rule).Fails (resultsText results ++ rest) :=
    .orElse (.token hgap (by simpa using (hmark ',' (by decide)).symm) (by decide))
      (.token hgap (by simpa using (hmark ')' (by decide)).symm) (by decide))
  exact .ahead (congrArg Option.isSome hnone)

/-- Only a type in round brackets begins with one. -/
theorem type_fails_bracket {s : List Char}
    (h : (grammar depth).parenthesizedType.Fails ('(' :: s)) :
    ((grammar (depth + 1)).type false).Fails ('(' :: s) := by
  have htype : ((grammar depth).typeRule false).Fails ('(' :: s) :=
    typeRule_fails_of_mark (takeGap_stop (by decide) (by decide) _) (by decide) (by simp) (by simp)
      fun _ => h
  exact htype

/-- Behind the word `func` stand brackets, which are those of a type only if the function has one
parameter and no result. -/
theorem NoType.params {params results : List (List Char)}
    (hparams : ∀ text ∈ params, ReadsAsParam text)
    (hresults : ∀ text ∈ results, ReadsAsParam text)
    (hmore : ∀ text, params = [text] → text.head? ≠ some '.' → results ≠ []) :
    NoType ('(' :: (commaSeparated params ++ ')' :: resultsText results)) := by
  refine ⟨fun rest => .tokens (takeGap_stop (by decide) (by decide) _) (by decide),
    fun depth rest hdepth hend => ?_⟩
  simp only [List.length_cons, List.length_append] at hdepth
  simp only [List.cons_append, List.append_assoc]
  obtain ⟨depth, rfl⟩ : ∃ d, depth = d + 1 := ⟨depth - 1, by omega⟩
  have hopen : ∀ s, (Rule.token "(").Reads ('(' :: s) [⟨none, .token [] ['(']⟩] s := fun _ =>
    .mark rfl (by decide)
  cases params with
  | nil =>
      exact .append (type_fails_bracket depth
        (.node (.append (.behind (hopen _) (type_fails (.of_cons (by decide) _) depth)))))
  | cons text others =>
      rw [commaSeparated_append]
      have hlength := length_le_commaSeparated (List.mem_cons_self (a := text) (l := others))
      obtain h | ⟨s, rfl, -⟩ := (hparams text (.head _)).cases_type
      case inr =>
        have hpoint : ∀ s, ((grammar depth).type false).Fails ('.' :: s) := fun s =>
          type_fails_of_marks
            (noWord_of_front (takeGap_stop (by decide) (by decide) _) (by decide))
            (.tokens (takeGap_stop (by decide) (by decide) _) (by decide)) depth
        exact .append (type_fails_bracket depth (.node (.append (.behind (hopen _) (hpoint _)))))
      cases others with
      | nil =>
          obtain ⟨c, cs, heq, -, -, -, hdot⟩ := h.front_plain
          obtain ⟨tree, hread, -⟩ := h.reads_parenthesized depth false (by omega)
            (takeGap_stop (by decide) (by decide) _)
          exact .behind hread (paramEnd_fails hresults
            (hmore text rfl (by simpa [heq] using hdot)))
      | cons next others =>
          have hcomma : Closes false (behindItems (next :: others)
              (')' :: (resultsText results ++ rest))) :=
            ⟨stopsWord_cons (by decide) _, .inr (.of_cons (by decide) _)⟩
          obtain ⟨tree, hread, -⟩ := h.reads depth (by omega) (h.gapless _) hcomma
          exact .append (type_fails_bracket depth
            (.node (.behind (.append (hopen _) hread) (.mark (by decide) (by decide)))))

end

end FluentBuilder.Go
